import StringHarvest.Proofs.Json.Reading

/-!
# Passing unwanted values

Whatever text of a value stands where nothing is known about it, it is passed as a whole
(`takes_skipValue`): however deep its lists and objects are, whether or not its numbers can be kept,
and also if its strings hold half a character.

The walk over a value keeps the brackets that are open. A text of a value takes it from before
the value to behind it and leaves the brackets as they are (`Passes`); for lists and objects
this is an induction over their parts (`runs_parts`), in which `Enters` says how the walk gets
from a part to the value in it.
-/

namespace StringHarvest.Json

open Reader

/-! ### Numbers -/

/-- A number does not go on with what ends a value. -/
theorem EndsValue.head {rest : List Char} (h : EndsValue rest) :
    ∀ c ∈ rest.head?, isDigit c = false ∧ c ≠ '.' ∧ c ≠ 'e' ∧ c ≠ 'E' := by
  intro c hc
  rcases h c hc with hspace | rfl | rfl | rfl
  · simp only [isSpace, Bool.or_eq_true, beq_iff_eq] at hspace
    rcases hspace with ((rfl | rfl) | rfl) | rfl <;> decide
  all_goals decide

/-- Digits are read up to the first other character. -/
theorem reads_digits {found rest : List Char} (hfound : ∀ c ∈ found, isDigit c = true)
    (hrest : ∀ c ∈ rest.head?, isDigit c = false) : Reads digits (found ++ rest) found rest := by
  refine (Reads.remaining _).bind ?_
  rw [takeWhile_append_eq hfound hrest]
  exact (Reads.skip found rest).bind (.pure found rest)

/-- The digits of an exponent behind its sign. -/
def skipExponentDigits : Reader Unit := do
  match ← peek with
  | none => failHere .invalidNumber
  | some c =>
    if isDigit c then do
      let _ ← digits
    else failAfter 1 .invalidNumber

/-- So are those of an exponent. -/
theorem reads_skipExponentDigits {found rest : List Char} (hfound : IsDigits found)
    (hrest : ∀ c ∈ rest.head?, isDigit c = false) :
    Reads skipExponentDigits (found ++ rest) () rest := by
  obtain ⟨hne, hdigits⟩ := hfound
  have hpass := reads_digits hdigits hrest
  obtain ⟨c, more, rfl⟩ := List.exists_cons_of_ne_nil hne
  refine (Reads.peek _).bind ?_
  simp only [List.cons_append, List.head?_cons, hdigits c List.mem_cons_self, ↓reduceIte]
  exact hpass.bind (.pure () rest)

/-- An exponent is passed with its mark and its sign. -/
theorem reads_skipExponent (mark : Char) {sign found rest : List Char}
    (hsign : sign = [] ∨ sign = ['+'] ∨ sign = ['-']) (hfound : IsDigits found)
    (hrest : ∀ c ∈ rest.head?, isDigit c = false) :
    Reads skipExponent (mark :: (sign ++ (found ++ rest))) () rest := by
  have hpass := reads_skipExponentDigits hfound hrest
  refine (Reads.advance _ _).bind ((Reads.peek _).bind ?_)
  rcases hsign with rfl | rfl | rfl
  · -- the first digit is no sign
    obtain ⟨hne, hdigits⟩ := hfound
    obtain ⟨c, more, rfl⟩ := List.exists_cons_of_ne_nil hne
    have hc := hdigits c List.mem_cons_self
    simp only [List.nil_append, List.cons_append, List.head?_cons]
    split
    · rename_i heq
      rw [Option.some.inj heq] at hc
      cases hc
    · rename_i heq
      rw [Option.some.inj heq] at hc
      cases hc
    · exact hpass
  · exact (Reads.advance _ _).bind hpass
  · exact (Reads.advance _ _).bind hpass

/-- What may follow the fraction of a number. -/
def skipAfterFraction : Reader Unit := do
  match ← peek with
  | some 'e' | some 'E' => skipExponent
  | _ => pure ()

/-- What may follow a fraction is passed. -/
theorem reads_skipAfterFraction {exponent rest : List Char} (h : IsExponent exponent)
    (hrest : EndsValue rest) : Reads skipAfterFraction (exponent ++ rest) () rest := by
  refine (Reads.peek _).bind ?_
  cases h with
  | absent =>
      rw [List.nil_append]
      split
      · rename_i heq
        exact absurd rfl (hrest.head _ heq).2.2.1
      · rename_i heq
        exact absurd rfl (hrest.head _ heq).2.2.2
      · exact .pure () rest
  | digits hmark hsign hdigits =>
      have hdigit : ∀ c ∈ rest.head?, isDigit c = false := fun c hc => (hrest.head c hc).1
      rw [List.cons_append, List.append_assoc]
      rcases hmark with rfl | rfl
      · exact reads_skipExponent 'e' hsign hdigits hdigit
      · exact reads_skipExponent 'E' hsign hdigits hdigit

/-- Without a fraction a number goes on as behind one. -/
theorem skipAfterWhole_eq {c : Cursor} (h : c.rest.head? ≠ some '.') :
    skipAfterWhole c = skipAfterFraction c := by
  have hpeek : ∀ f : Option Char → Reader Unit, (peek >>= f) c = f c.rest.head? c := fun _ => rfl
  unfold skipAfterWhole skipAfterFraction
  rw [hpeek, hpeek]
  refine congrFun ?_ c
  split
  · rename_i heq
    exact absurd heq h
  · rename_i heq
    rw [heq]
    rfl
  · rename_i heq
    rw [heq]
    rfl
  · rename_i he hE
    split
    · rename_i heq
      exact absurd heq he
    · rename_i heq
      exact absurd heq hE
    · rfl

/-- Neither a digit nor a point stands before an exponent. -/
theorem IsExponent.head {exponent rest : List Char} (h : IsExponent exponent)
    (hrest : EndsValue rest) : ∀ c ∈ (exponent ++ rest).head?, isDigit c = false ∧ c ≠ '.' := by
  intro c hc
  cases h with
  | absent => exact ⟨(hrest.head c hc).1, (hrest.head c hc).2.1⟩
  | digits hmark _ _ =>
      obtain rfl := Option.some.inj hc
      rcases hmark with rfl | rfl <;> decide

/-- No digit stands before a fraction. -/
theorem IsFraction.head {fraction exponent rest : List Char} (h : IsFraction fraction)
    (hexponent : IsExponent exponent) (hrest : EndsValue rest) :
    ∀ c ∈ (fraction ++ (exponent ++ rest)).head?, isDigit c = false := by
  intro c hc
  cases h with
  | absent => exact (hexponent.head hrest c hc).1
  | digits _ =>
      obtain rfl := Option.some.inj hc
      decide

/-- What may follow the whole part of a number is passed. -/
theorem reads_skipAfterWhole {fraction exponent rest : List Char} (hfraction : IsFraction fraction)
    (hexponent : IsExponent exponent) (hrest : EndsValue rest) :
    Reads skipAfterWhole (fraction ++ (exponent ++ rest)) () rest := by
  have hafter := reads_skipAfterFraction hexponent hrest
  have hhead := hexponent.head hrest
  cases hfraction with
  | absent =>
      intro place
      obtain ⟨place', hplace⟩ := hafter place
      exact ⟨place', (skipAfterWhole_eq fun hdot => (hhead _ hdot).2 rfl).trans hplace⟩
  | digits hdigits =>
      obtain ⟨hne, hdigits⟩ := hdigits
      have hpass := reads_digits hdigits fun c hc => (hhead c hc).1
      refine (Reads.peek _).bind ((Reads.advance _ _).bind (hpass.bind ?_))
      rw [if_neg (by simpa using hne)]
      exact hafter

/-- **A number** behind its sign is passed. -/
theorem reads_skipNumber {cs rest : List Char} (h : IsUnsigned cs) (hrest : EndsValue rest) :
    Reads skipNumber (cs ++ rest) () rest := by
  obtain @⟨whole, fraction, exponent, hwhole, hfraction, hexponent⟩ := h
  have hafter := reads_skipAfterWhole hfraction hexponent hrest
  have hhead := hfraction.head hexponent hrest
  rw [List.append_assoc, List.append_assoc]
  refine (Reads.peek _).bind ?_
  cases hwhole with
  | zero =>
      refine (Reads.advance _ _).bind ((Reads.peek _).bind ?_)
      split
      · rename_i c heq
        rw [if_neg (by simp [hhead c heq])]
        exact hafter
      · exact hafter
  | @digits c more hfirst hdigits =>
      have hpass := reads_digits hdigits.2 hhead
      have hc := hdigits.2 c List.mem_cons_self
      rw [List.cons_append, List.head?_cons]
      split
      · rename_i heq
        cases heq
      · rename_i heq
        exact absurd (Option.some.inj heq) hfirst
      · rename_i heq
        obtain rfl := Option.some.inj heq
        rw [if_neg (by simp [hc])]
        exact hpass.bind hafter

/-! ### Lists and objects -/

/-- The size of what a walk still has to do: a bracket that has just been
opened takes one step more. -/
def walkSize : Walk → List Char → Nat
  | .inFrame false _, cs => 2 * cs.length + 2
  | .inFrame true _, cs => 2 * cs.length + 1
  | .atValue _, cs => 2 * cs.length + 1

/-- A walk gets from before a text to behind it, with the same brackets open. -/
def Passes (cs : List Char) : Prop :=
  ∀ outer blank rest after, IsBlank blank → EndsValue rest →
    Runs skipStep walkSize () after (.inFrame true outer) rest →
      Runs skipStep walkSize () after (.atValue outer) (blank ++ (cs ++ rest))

/-- The bracket that closes a list or an object. -/
def Frame.closing : Frame → Char
  | .list => ']'
  | .object => '}'

/-- A walk that is led to a part of a list or an object gets to the value in it. -/
def Enters (frame : Frame) (part value : List Char) : Prop :=
  ∀ blank, IsBlank blank → ∃ blank', IsBlank blank' ∧
    blank'.length + value.length ≤ blank.length + part.length ∧
    ∀ rest, Reads (enterNext frame) (blank ++ (part ++ rest)) () (blank' ++ (value ++ rest))

/-- An element of a list is entered as it stands. -/
theorem enters_list (part : List Char) : Enters .list part part := fun blank hblank =>
  ⟨blank, hblank, Nat.le_refl _, fun _ => .pure () _⟩

/-- A member of an object is entered behind its key. -/
theorem enters_object {m : MemberText} (h : IsString m.key) : Enters .object m.text m.value := by
  intro blank hblank
  obtain ⟨body, hkey, hbody⟩ := reads_stringBody_unwanted h
  have hlength : m.after.length + m.value.length ≤ blank.length + m.text.length := by
    simp only [MemberText.text, List.length_append, List.length_cons]
    omega
  refine ⟨m.after, m.after_blank, hlength, fun rest => ?_⟩
  obtain ⟨x, hx⟩ := hbody (m.before ++ ':' :: (m.after ++ (m.value ++ rest)))
  simp only [MemberText.text, hkey, List.cons_append, List.append_assoc]
  exact .token hblank rfl ((Reads.advance _ _).bind (hx.bind (reads_colon m _)))

/-- The closing bracket of a list or an object leads out of it. -/
theorem Parts.reads_skipStep_nil {frame : Frame} {isFirst : Bool} {cs : List Char}
    (h : Parts frame.closing isFirst [] cs) (afterValue : Bool) (outer : List Frame)
    (rest : List Char) :
    Reads (skipStep (.inFrame afterValue (frame :: outer))) (cs ++ rest)
      (.inl (.inFrame true outer))
      rest := by
  cases h with
  | close hblank =>
      rw [List.append_assoc]
      cases frame with
      | list => exact .token hblank rfl ((Reads.advance _ _).bind (.pure _ _))
      | object => exact .token hblank rfl ((Reads.advance _ _).bind (.pure _ _))

/-- The walk over a list or an object gets to the value of its next part. -/
theorem Parts.reads_skipStep {frame : Frame} {isFirst : Bool} {part value cs : List Char}
    {parts : List (List Char)} (h : Parts frame.closing isFirst (part :: parts) cs)
    (hpart : StartsValue part) (henters : Enters frame part value) (outer : List Frame) :
    ∃ blank ds, IsBlank blank ∧ Parts frame.closing false parts ds ∧
      ∀ rest, Reads (skipStep (.inFrame (!isFirst) (frame :: outer))) (cs ++ rest)
        (.inl (.atValue (frame :: outer))) (blank ++ (value ++ (ds ++ rest))) ∧
        walkSize (.atValue (frame :: outer)) (blank ++ (value ++ (ds ++ rest))) <
          walkSize (.inFrame (!isFirst) (frame :: outer)) (cs ++ rest) := by
  cases h with
  | @first _ _ ds _ hblank hrest =>
      obtain ⟨blank', hblank', hlength, henters⟩ := henters [] isBlank_nil
      refine ⟨blank', ds, hblank', hrest, fun rest => ⟨?_, ?_⟩⟩
      · obtain ⟨c, part, rfl, hspace, hlist, hobject⟩ := hpart
        rw [List.append_assoc, List.append_assoc]
        refine .token hblank hspace ?_
        split
        · rename_i heq _
          exact absurd (Option.some.inj heq) hlist
        · rename_i heq _
          exact absurd (Option.some.inj heq) hobject
        · rename_i heq _
          cases heq
        · rename_i heq _
          cases heq
        · exact (henters (ds ++ rest)).bind (.pure _ _)
      · simp only [walkSize, Bool.not_true, List.length_append, List.length_nil] at hlength ⊢
        omega
  | @next before after _ ds _ hbefore hafter hrest =>
      obtain ⟨blank', hblank', hlength, henters⟩ := henters after hafter
      refine ⟨blank', ds, hblank', hrest, fun rest => ⟨?_, ?_⟩⟩
      · rw [List.append_assoc, List.cons_append, List.append_assoc, List.append_assoc]
        refine .token hbefore rfl ?_
        cases frame with
        | list => exact (Reads.advance _ _).bind ((henters (ds ++ rest)).bind (.pure _ _))
        | object => exact (Reads.advance _ _).bind ((henters (ds ++ rest)).bind (.pure _ _))
      · simp only [walkSize, Bool.not_false, List.length_append, List.length_cons] at hlength ⊢
        omega

/-- The walk over the parts of a list or an object gets behind its closing bracket. -/
theorem runs_parts {frame : Frame} {outer : List Frame} {isFirst : Bool} {cs rest after : List Char}
    {parts values : List (List Char)} (h : Parts frame.closing isFirst parts cs)
    (hparts : List.Forall₂ (fun part value =>
      StartsValue part ∧ Enters frame part value ∧ Passes value)
      parts values)
    (hruns : Runs skipStep walkSize () after (.inFrame true outer) rest) :
    Runs skipStep walkSize () after (.inFrame (!isFirst) (frame :: outer)) (cs ++ rest) := by
  have hclosing : frame.closing = ']' ∨ frame.closing = '}' := by
    cases frame <;> simp [Frame.closing]
  induction hparts generalizing isFirst cs with
  | nil =>
      have hsize : rest.length < (cs ++ rest).length := by
        cases h
        simp only [List.length_append, List.length_singleton]
        omega
      refine .more (h.reads_skipStep_nil (!isFirst) outer rest) ?_ hruns
      cases isFirst <;> simp only [walkSize, Bool.not_true, Bool.not_false] <;> omega
  | cons hpart _ ih =>
      obtain ⟨hstart, henters, hvalue⟩ := hpart
      obtain ⟨blank, ds, hblank, hrest, hstep⟩ := h.reads_skipStep hstart henters outer
      obtain ⟨hstep, hsize⟩ := hstep rest
      exact .more hstep hsize (hvalue _ _ _ _ hblank (hrest.endsValue hclosing rest) (ih hrest))

/-! ### Values -/

/-- A string starts a value. -/
theorem IsString.startsValue {cs : List Char} (h : IsString cs) : StartsValue cs := by
  obtain ⟨_, -, rfl⟩ := h
  exact startsValue_cons (by decide) _

/-- What follows does not matter to how a value starts. -/
theorem StartsValue.append {cs : List Char} (h : StartsValue cs) (rest : List Char) :
    StartsValue (cs ++ rest) := by
  obtain ⟨c, cs, rfl, hc⟩ := h
  exact startsValue_cons hc (cs ++ rest)

/-- A digit may start a value. -/
theorem isDigit_start {c : Char} (h : isDigit c = true) :
    isSpace c = false ∧ c ≠ ']' ∧ c ≠ '}' := by
  refine ⟨?_, (by rintro rfl; cases h), (by rintro rfl; cases h)⟩
  by_contra hspace
  simp only [isSpace, Bool.not_eq_false, Bool.or_eq_true, beq_iff_eq] at hspace
  rcases hspace with ((rfl | rfl) | rfl) | rfl <;> cases h

/-- An unsigned number starts with a digit. -/
theorem IsUnsigned.exists_digit {cs : List Char} (h : IsUnsigned cs) :
    ∃ c rest, cs = c :: rest ∧ isDigit c = true := by
  obtain @⟨whole, fraction, exponent, hwhole, -, -⟩ := h
  cases hwhole with
  | zero => exact ⟨'0', _, rfl, by decide⟩
  | @digits c cs _ hdigits => exact ⟨c, _, rfl, hdigits.2 c List.mem_cons_self⟩

/-- Every value starts like one. -/
theorem IsValue.startsValue {cs : List Char} (h : IsValue cs) : StartsValue cs := by
  cases h with
  | null => exact startsValue_cons (by decide) ['u', 'l', 'l']
  | true => exact startsValue_cons (by decide) ['r', 'u', 'e']
  | false => exact startsValue_cons (by decide) ['a', 'l', 's', 'e']
  | unsigned h =>
      obtain ⟨c, rest, rfl, hc⟩ := h.exists_digit
      exact startsValue_cons (isDigit_start hc) rest
  | negative _ => exact startsValue_cons (by decide) _
  | string h => exact h.startsValue
  | list _ _ => exact startsValue_cons (by decide) _
  | object _ _ _ => exact startsValue_cons (by decide) _

/-- A text that is passed in one step. -/
theorem passes_of_reads {cs : List Char} (hcs : cs ≠ [])
    (h : ∀ {outer : List Frame} {blank rest : List Char}, IsBlank blank → EndsValue rest →
      Reads (skipStep (.atValue outer)) (blank ++ (cs ++ rest)) (.inl (.inFrame true outer)) rest) :
    Passes cs := by
  intro outer blank rest after hblank hrest hruns
  have hlength := List.length_pos_iff.mpr hcs
  refine .more (h hblank hrest) ?_ hruns
  simp only [walkSize, List.length_append]
  omega

/-- Between brackets stand parts whose values are passed. -/
theorem passes_of_opening (frame : Frame) {opening : Char} {cs : List Char}
    {parts values : List (List Char)}
    (hopening : ∀ {outer : List Frame} {blank rest : List Char}, IsBlank blank →
      Reads (skipStep (.atValue outer)) (blank ++ opening :: rest)
        (.inl (.inFrame false (frame :: outer)))
        rest)
    (h : Parts frame.closing true parts cs)
    (hparts : List.Forall₂ (fun part value =>
      StartsValue part ∧ Enters frame part value ∧ Passes value)
      parts values) : Passes (opening :: cs) := by
  intro outer blank rest after hblank _ hruns
  rw [List.cons_append]
  refine .more (hopening hblank) ?_ (runs_parts h hparts hruns)
  simp only [walkSize, List.length_append, List.length_cons]
  omega

/-- What starts with a digit is passed as a number. -/
theorem reads_skipStep_digit {c : Char} {outer : List Frame} {blank cs rest : List Char}
    (hblank : IsBlank blank) (hc : isDigit c = true) (h : Reads skipNumber (c :: cs) () rest) :
    Reads (skipStep (.atValue outer)) (blank ++ c :: cs) (.inl (.inFrame true outer)) rest := by
  have hne : ∀ d, isDigit d = false → some c ≠ some d := by
    rintro d hd heq
    rw [← Option.some.inj heq, hc] at hd
    cases hd
  refine .token hblank (isDigit_start hc).1 ?_
  split
  · next heq => cases heq
  · next heq => exact absurd heq (hne 'n' rfl)
  · next heq => exact absurd heq (hne 't' rfl)
  · next heq => exact absurd heq (hne 'f' rfl)
  · next heq => exact absurd heq (hne '-' rfl)
  · next heq => exact absurd heq (hne '"' rfl)
  · next heq => exact absurd heq (hne '[' rfl)
  · next heq => exact absurd heq (hne '{' rfl)
  · next heq =>
    rw [← Option.some.inj heq, if_pos hc]
    exact h.bind (.pure _ _)

/-- **The text of a value is passed.** -/
theorem IsValue.passes {cs : List Char} (h : IsValue cs) : Passes cs := by
  induction h with
  | null =>
      refine passes_of_reads (by decide) fun hblank _ => ?_
      exact .token hblank rfl ((Reads.advance _ _).bind ((Reads.word _ _).bind (.pure _ _)))
  | true =>
      refine passes_of_reads (by decide) fun hblank _ => ?_
      exact .token hblank rfl ((Reads.advance _ _).bind ((Reads.word _ _).bind (.pure _ _)))
  | false =>
      refine passes_of_reads (by decide) fun hblank _ => ?_
      exact .token hblank rfl ((Reads.advance _ _).bind ((Reads.word _ _).bind (.pure _ _)))
  | unsigned h =>
      obtain ⟨c, more, hcs, hc⟩ := h.exists_digit
      refine passes_of_reads (by simp [hcs]) fun hblank hrest => ?_
      have hskip := reads_skipNumber h hrest
      rw [hcs] at hskip ⊢
      exact reads_skipStep_digit hblank hc hskip
  | negative h =>
      refine passes_of_reads (List.cons_ne_nil _ _) fun hblank hrest => ?_
      exact .token hblank rfl
        ((Reads.advance _ _).bind ((reads_skipNumber h hrest).bind (.pure _ _)))
  | string h =>
      obtain ⟨body, rfl, hbody⟩ := reads_stringBody_unwanted h
      refine passes_of_reads (List.cons_ne_nil _ _) fun {_ _ rest} hblank hrest => ?_
      obtain ⟨x, hx⟩ := hbody rest
      exact .token hblank rfl ((Reads.advance _ _).bind (hx.bind (.pure _ _)))
  | @list parts cs hvalues h ih =>
      have hparts : List.Forall₂ (fun part value => StartsValue part ∧ Enters .list part value ∧
          Passes value) parts parts :=
        List.forall₂_same.mpr fun part hpart =>
          ⟨(hvalues part hpart).startsValue, enters_list part, ih part hpart⟩
      refine passes_of_opening .list (fun hblank => ?_) h hparts
      exact .token hblank rfl ((Reads.advance _ _).bind (.pure _ _))
  | @object members cs hkeys hvalues h ih =>
      have hparts : List.Forall₂ (fun part value => StartsValue part ∧ Enters .object part value ∧
          Passes value) (members.map MemberText.text) (members.map MemberText.value) := by
        rw [List.forall₂_map_left_iff, List.forall₂_map_right_iff]
        exact List.forall₂_same.mpr fun m hm =>
          ⟨(hkeys m hm).startsValue.append _, enters_object (hkeys m hm), ih m hm⟩
      refine passes_of_opening .object (fun hblank => ?_) h hparts
      exact .token hblank rfl ((Reads.advance _ _).bind (.pure _ _))

/-- Every value is passed. -/
theorem takes_skipValue {cs : List Char} (h : IsValue cs) : Takes skipValue cs () := by
  intro blank rest hblank hrest
  have hend : Reads (skipStep (.inFrame true [])) rest (.inr ()) rest := .pure _ _
  have hruns := h.passes [] _ _ _ hblank hrest (.stop hend)
  exact fun place => hruns.reads (Nat.lt_succ_self _) place

end StringHarvest.Json
