import StringHarvest.Catalog.OfSource
import StringHarvest.Proofs.Message.CallReading

/-!
# Keys in brackets

In `{ [e]: v }` the key is computed when the script runs, so what it is cannot be known. But of the
brackets nothing is left in the tree: the key is the node of `e`, and a name or a literal there is
read like one without brackets (`Script.Expr.keyText`).

**Main theorem** (`alike_computedKey_iff`): a property with a key in brackets changes the options of
a call exactly if its key reads as a name, its value has a text, no later property puts a text under
that name, and not the same text stands there anyway. It can only change what stands under that
name, so a message stays the same unless the name is `context` or `comment`. `{ [context]: "m" }` is
one that sets the context of a message (`not_alike_computedContext`).
-/

namespace StringHarvest

open Script (Expr Member)
open Node Options

/-- What an expression in brackets is read as: a name or the text of a literal, whatever is wrapped
around them. -/
def Script.Expr.keyText : Expr → String
  | .name id => id
  | .literal value => (literalOf value).display
  | .paren inner => inner.keyText
  | .typed _ inner => inner.keyText
  | _ => ""

namespace Node

/-- The body of a function has no name. -/
theorem nameOf_ofBody (locate : Nat → Location) (kind : String) (body : Script.Body) :
    nameOf (ofBody locate kind body) = "" := by
  cases body <;> rfl

/-- **A key in brackets** is read as the expression shows it. -/
theorem nameOf_ofExpr (locate : Nat → Location) :
    (key : Expr) → nameOf (ofExpr locate key) = key.keyText
  | .paren inner => nameOf_ofExpr locate inner
  | .typed _ inner => nameOf_ofExpr locate inner
  | .name _ | .literal _ | .this | .array _ | .object _ | .template _ | .tagged .. | .superMember _
  | .call .. | .superCall .. | .importCall .. | .new .. | .unary .. | .update _ | .await _
  | .yield _ | .assign .. | .conditional .. | .sequence _ | .classValue _ | .jsxElement ..
  | .jsxFragment _ | .metaProperty _ | .privateName _ | .missing => rfl
  | .member _ access _ => by cases access <;> rfl
  | .binary operator _ _ => by
      rw [ofExpr, ofBinary]
      split <;> rfl
  | .function body => nameOf_ofBody locate _ body
  | .arrow body => nameOf_ofBody locate _ body

/-- Members of an object stand one behind the other in the tree. -/
theorem ofMembers_append (locate : Nat → Location) (members later : List Member) :
    ofMembers locate (members ++ later) = ofMembers locate members ++ ofMembers locate later := by
  induction members with
  | nil => rfl
  | cons member rest ih => cases member <;> simp [ofMembers, ih]

end Node

namespace Options

/-- The options that an object literal of a script gives. -/
def ofMembers (locate : Nat → Location) (members : List Member) : Options :=
  (ofNode (ofExpr locate (.object members))).value

/-- An option of an object is the last text under its name. -/
theorem get?_ofMembers (locate : Nat → Location) (members : List Member) (name : String) :
    (ofMembers locate members).get? name = lastText? (Node.ofMembers locate members) name :=
  get?_ofNode (.object (Node.ofMembers locate members)) name

/-- Objects are alike if they give the same options. -/
theorem alike_ofMembers_iff {locate : Nat → Location} {members others : List Member} :
    (ofMembers locate members).Alike (ofMembers locate others) ↔
      ∀ name, (ofMembers locate members).get? name = (ofMembers locate others).get? name :=
  ⟨Alike.get?, alike_of_get? (nodup_names_ofNode _) (nodup_names_ofNode _)⟩

section computedKey

variable (locate : Nat → Location) (before after : List Member) (key value : Expr)

/-- What stands under a name with a computed key among the members: a text that is put there later,
or that of the computed key, or one that was put there before. -/
theorem get?_computedKey (name : String) :
    (ofMembers locate (before ++ .keyed (.computed key) value :: after)).get? name =
      ((ofMembers locate after).get? name).or
        ((textUnder? name (.property (ofExpr locate key) (ofExpr locate value))).or
          ((ofMembers locate before).get? name)) := by
  simp only [get?_ofMembers, ofMembers_append, Node.ofMembers, ofKey, lastText?_append,
    lastText?_cons, Option.or_assoc]

/-- Without a computed key between them, later members count before earlier ones. -/
theorem get?_noComputedKey (name : String) :
    (ofMembers locate (before ++ after)).get? name =
      ((ofMembers locate after).get? name).or ((ofMembers locate before).get? name) := by
  rw [get?_ofMembers, ofMembers_append, lastText?_append, ← get?_ofMembers, ← get?_ofMembers]

variable {key value}

/-- Under other names a computed key changes nothing. -/
theorem get?_computedKey_of_ne {name : String} (h : name ≠ key.keyText) :
    (ofMembers locate (before ++ .keyed (.computed key) value :: after)).get? name =
      (ofMembers locate (before ++ after)).get? name := by
  have hname : nameOf (ofExpr locate key) ≠ name := by
    rw [nameOf_ofExpr]
    exact h.symm
  rw [get?_computedKey, get?_noComputedKey, textUnder?_of_nameOf_ne hname, Option.none_or]

/-- Under its own name it changes nothing if it puts nothing there, if a text is put there later, or
if it is the text that stands there anyway. -/
theorem get?_computedKey_keyText_iff :
    (ofMembers locate (before ++ .keyed (.computed key) value :: after)).get? key.keyText =
        (ofMembers locate (before ++ after)).get? key.keyText ↔
      key.keyText = "" ∨ (ofExpr locate value).constantText.value = "" ∨
        ((ofMembers locate after).get? key.keyText).isSome ∨
        (ofMembers locate (before ++ after)).get? key.keyText =
          some (ofExpr locate value).constantText.value := by
  rw [get?_computedKey, get?_noComputedKey]
  rcases hafter : (ofMembers locate after).get? key.keyText with _ | text
  · simp only [Option.none_or, Option.isSome_none, Bool.false_eq_true, false_or]
    by_cases hputs : key.keyText ≠ "" ∧ (ofExpr locate value).constantText.value ≠ ""
    · rw [textUnder?, if_pos ⟨hputs.1, nameOf_ofExpr locate key, hputs.2⟩, Option.some_or]
      simp [hputs.1, hputs.2, eq_comm]
    · have hnothing : textUnder? key.keyText (.property (ofExpr locate key) (ofExpr locate value)) =
          none := by
        rw [textUnder?, if_neg]
        rintro ⟨hkey, -, hvalue⟩
        exact hputs ⟨hkey, hvalue⟩
      rw [hnothing, Option.none_or]
      simp only [true_iff]
      by_cases hkey : key.keyText = ""
      · exact .inl hkey
      · by_cases hvalue : (ofExpr locate value).constantText.value = ""
        · exact .inr (.inl hvalue)
        · exact absurd ⟨hkey, hvalue⟩ hputs
  · simp

end computedKey

end Options

namespace Call

/-- What follows the first argument is taken alike if the texts that matter are the same in two
object literals at one place. -/
theorem pluralAndOptions_object {members others : List Node}
    (hcontext : lastText? members "context" = lastText? others "context")
    (hcomment : lastText? members "comment" = lastText? others "comment") (front back : List Node) :
    let taken := (pluralAndOptions (front ++ .object members :: back)).value
    let other := (pluralAndOptions (front ++ .object others :: back)).value
    taken.1 = other.1 ∧ taken.2.context = other.2.context ∧ taken.2.comment = other.2.comment := by
  have hoptions :
      (ofNode (.object members)).value.context = (ofNode (.object others)).value.context ∧
      (ofNode (.object members)).value.comment = (ofNode (.object others)).value.comment := by
    simp only [Options.context, Options.comment, get?_ofNode, Node.members, hcontext, hcomment,
      and_self]
  rcases front with _ | ⟨second, _ | ⟨third, more⟩⟩
  · exact ⟨rfl, hoptions⟩
  · by_cases hobject : second.isObject = true
    · simp [pluralAndOptions, hobject]
    · simpa [pluralAndOptions, hobject] using hoptions
  · by_cases hobject : second.isObject = true <;> simp [pluralAndOptions, hobject]

/-- A call gives the same message with two object literals at one place among its arguments if the
texts that matter are the same in both. -/
theorem value_message?_object {members others : List Node}
    (hcontext : lastText? members "context" = lastText? others "context")
    (hcomment : lastText? members "comment" = lastText? others "comment") (lines : List String)
    (front back : List Node) (location : Option Location) :
    (message? lines ⟨front ++ .object members :: back, location⟩).value =
      (message? lines ⟨front ++ .object others :: back, location⟩).value := by
  rcases front with _ | ⟨first, front⟩
  · rfl
  · obtain ⟨hplural, hcontext, hcomment⟩ := pluralAndOptions_object hcontext hcomment front back
    rw [value_message?_cons List.cons_append, value_message?_cons List.cons_append, hplural,
      hcontext, hcomment]
    rfl

end Call

namespace Options

/-- **When a key in brackets is passed over.** Taken into an object literal at any place, a
property with a computed key leaves the options as they are exactly if its key reads as no name,
or its value has no text, or a later property puts a text under the name, or the same text stands
there anyway. It changes nothing under other names, and no message of a call if its key is
neither `context` nor `comment`. -/
theorem alike_computedKey_iff (locate : Nat → Location) (before after : List Member)
    (key value : Expr) :
    ((ofMembers locate (before ++ .keyed (.computed key) value :: after)).Alike
        (ofMembers locate (before ++ after)) ↔
      key.keyText = "" ∨ (ofExpr locate value).constantText.value = "" ∨
        ((ofMembers locate after).get? key.keyText).isSome ∨
        (ofMembers locate (before ++ after)).get? key.keyText =
          some (ofExpr locate value).constantText.value) ∧
    (∀ name, name ≠ key.keyText →
      (ofMembers locate (before ++ .keyed (.computed key) value :: after)).get? name =
        (ofMembers locate (before ++ after)).get? name) ∧
    (key.keyText ≠ "context" → key.keyText ≠ "comment" → ∀ lines front back location,
      (Call.message? lines ⟨front ++ ofExpr locate
          (.object (before ++ .keyed (.computed key) value :: after)) :: back, location⟩).value =
        (Call.message? lines ⟨front ++ ofExpr locate (.object (before ++ after)) :: back,
          location⟩).value) := by
  have hother : ∀ name, name ≠ key.keyText →
      (ofMembers locate (before ++ .keyed (.computed key) value :: after)).get? name =
        (ofMembers locate (before ++ after)).get? name :=
    fun name hname => get?_computedKey_of_ne locate before after hname
  refine ⟨?_, hother, ?_⟩
  · rw [alike_ofMembers_iff, ← get?_computedKey_keyText_iff]
    refine ⟨fun h => h key.keyText, fun h name => ?_⟩
    by_cases hname : name = key.keyText
    · rw [hname, h]
    · exact hother name hname
  · intro hcontext hcomment lines front back location
    refine Call.value_message?_object ?_ ?_ lines front back location
    · rw [← get?_ofMembers, ← get?_ofMembers, hother _ hcontext.symm]
    · rw [← get?_ofMembers, ← get?_ofMembers, hother _ hcomment.symm]

/-- A call in brackets reads as no name, and `["context"]` is passed over
where a context follows. -/
theorem alike_computedKey_iff_passedOver :
    let locate := Text.locate []
    let context : Member := .keyed (.name "context") (.literal (.string (some "m")))
    let text : Expr := .literal (.string (some "x"))
    (ofMembers locate [.keyed (.computed (.call 0 (.name "f") [] false)) text, context]).Alike
        (ofMembers locate [context]) ∧
      (ofMembers locate
        [.keyed (.computed (.literal (.string (some "context")))) text, context]).Alike
        (ofMembers locate [context]) := by
  intro locate context text
  constructor
  · exact (alike_computedKey_iff locate [] [context] _ text).1.mpr (.inl rfl)
  · refine (alike_computedKey_iff locate [] [context] _ text).1.mpr (.inr (.inr (.inl ?_)))
    decide +kernel

/-- The key `[context]` sets the context of a message. -/
theorem not_alike_computedContext :
    let key : Expr := .name "context"
    let value : Expr := .literal (.string (some "m"))
    ¬ (ofMembers (Text.locate []) [.keyed (.computed key) value]).Alike
        (ofMembers (Text.locate []) []) ∧
      (Source.parse "tr(\"a\", \x7b[context]: \"m\"\x7d)" "test.js" .javascript).toOption.map
          (Catalog.ofSource ["tr"]) = some ⟨[{ singular := "a", context := "m" }]⟩ ∧
      (Source.parse "tr(\"a\", \x7b\x7d)" "test.js" .javascript).toOption.map
          (Catalog.ofSource ["tr"]) = some ⟨[{ singular := "a" }]⟩ := by
  intro key value
  refine ⟨?_, by decide +kernel, by decide +kernel⟩
  intro halike
  have hget := halike.get? "context"
  revert hget
  decide +kernel

end Options

end StringHarvest
