import Mathlib.Data.List.Forall2
import StringHarvest.Json.Value

/-!
# The texts of JSON

Which texts are JSON, and what some of them spell, said without a reader. White space may stand
between any two parts of a text, a string may be spelled with or without escapes, and a number
need not be one that can be kept.

* **`IsValue`**: the texts of values.
* **`SpellsString`**, **`SpellsList`** and **`SpellsObject`**: the texts of a string, of a list of
  things that are spelled in some way, and of an object with given members.

What is written is spelled (`spellsString_quote`, `spellsList_onLines`, `spellsObject_onLines`).
-/

namespace StringHarvest.Json

/-- White space between the parts of a text, or nothing. -/
def IsBlank (cs : List Char) : Prop := ∀ c ∈ cs, Reader.isSpace c = true

/-- Nothing is white space. -/
theorem isBlank_nil : IsBlank [] := nofun

/-! ### Strings -/

/-- Four hexadecimal digits spell a number. -/
def SpellsUnit (n : Nat) (digits : List Char) : Prop :=
  digits.length = 4 ∧ hexValue? digits = some n

/-- The texts of a character inside a string. -/
inductive SpellsChar : Char → List Char → Prop
  | plain {c : Char} (hcontrol : 0x20 ≤ c.toNat) (hquote : c ≠ '"') (hbackslash : c ≠ '\\') :
      SpellsChar c [c]
  | letter {c l : Char} (h : plainEscape? l = some c) : SpellsChar c ['\\', l]
  | code {c : Char} {digits : List Char} (h : SpellsUnit c.toNat digits) :
      SpellsChar c ('\\' :: 'u' :: digits)
  | surrogates {c : Char} {high low : List Char} {h l : Nat} (hhigh : SpellsUnit (0xD800 + h) high)
      (hlow : SpellsUnit (0xDC00 + l) low) (hh : h < 0x400) (hl : l < 0x400)
      (hc : c.toNat = 0x10000 + h * 0x400 + l) :
      SpellsChar c ('\\' :: 'u' :: high ++ '\\' :: 'u' :: low)

/-- The texts of a string, with their quotes. -/
def SpellsString (text : String) (cs : List Char) : Prop :=
  ∃ pieces, List.Forall₂ SpellsChar text.toList pieces ∧ cs = '"' :: (pieces.flatten ++ ['"'])

/-- The pieces of a string of which nobody asks what it spells: a surrogate may stand alone. -/
inductive IsPiece : List Char → Prop
  | plain {c : Char} (hcontrol : 0x20 ≤ c.toNat) (hquote : c ≠ '"') (hbackslash : c ≠ '\\') :
    IsPiece [c]
  | letter {c l : Char} (h : plainEscape? l = some c) : IsPiece ['\\', l]
  | code {n : Nat} {digits : List Char} (h : SpellsUnit n digits) : IsPiece ('\\' :: 'u' :: digits)

/-- The texts of strings. -/
def IsString (cs : List Char) : Prop :=
  ∃ pieces : List (List Char), (∀ piece ∈ pieces, IsPiece piece) ∧
    cs = '"' :: (pieces.flatten ++ ['"'])

/-! ### Numbers -/

/-- Decimal digits, at least one. -/
def IsDigits (cs : List Char) : Prop := cs ≠ [] ∧ ∀ c ∈ cs, isDigit c = true

/-- The whole part of a number: it starts with a zero only if it is one. -/
inductive IsWhole : List Char → Prop
  | zero : IsWhole ['0']
  | digits {c : Char} {cs : List Char} (hfirst : c ≠ '0') (h : IsDigits (c :: cs)) :
    IsWhole (c :: cs)

/-- The fraction of a number, if it has one. -/
inductive IsFraction : List Char → Prop
  | absent : IsFraction []
  | digits {cs : List Char} (h : IsDigits cs) : IsFraction ('.' :: cs)

/-- The exponent of a number, if it has one. -/
inductive IsExponent : List Char → Prop
  | absent : IsExponent []
  | digits {mark : Char} {sign cs : List Char} (hmark : mark = 'e' ∨ mark = 'E')
      (hsign : sign = [] ∨ sign = ['+'] ∨ sign = ['-']) (h : IsDigits cs) :
      IsExponent (mark :: (sign ++ cs))

/-- The texts of numbers without a sign. -/
inductive IsUnsigned : List Char → Prop
  | mk {whole fraction exponent : List Char} (hwhole : IsWhole whole)
      (hfraction : IsFraction fraction) (hexponent : IsExponent exponent) :
      IsUnsigned (whole ++ (fraction ++ exponent))

/-! ### Lists and objects -/

/-- Parts up to a closing bracket, with commas between them and white space anywhere around them. -/
inductive Parts (closing : Char) : (isFirst : Bool) → List (List Char) → List Char → Prop
  | close {isFirst : Bool} {blank : List Char} (h : IsBlank blank) :
      Parts closing isFirst [] (blank ++ [closing])
  | first {blank part cs : List Char} {parts : List (List Char)} (h : IsBlank blank)
      (hrest : Parts closing false parts cs) :
      Parts closing true (part :: parts) (blank ++ (part ++ cs))
  | next {before after part cs : List Char} {parts : List (List Char)} (hbefore : IsBlank before)
      (hafter : IsBlank after) (hrest : Parts closing false parts cs) :
      Parts closing false (part :: parts) (before ++ ',' :: (after ++ (part ++ cs)))

/-- The text of a member of an object, with the white space around its colon. -/
structure MemberText where
  /-- The key, with its quotes. -/
  key : List Char
  /-- What stands before the colon. -/
  before : List Char
  /-- What stands behind the colon. -/
  after : List Char
  /-- The value. -/
  value : List Char
  before_blank : IsBlank before
  after_blank : IsBlank after

/-- The characters of a member. -/
def MemberText.text (m : MemberText) : List Char :=
  m.key ++ (m.before ++ ':' :: (m.after ++ m.value))

/-- The texts of values. -/
inductive IsValue : List Char → Prop
  | null : IsValue "null".toList
  | true : IsValue "true".toList
  | false : IsValue "false".toList
  | unsigned {cs : List Char} (h : IsUnsigned cs) : IsValue cs
  | negative {cs : List Char} (h : IsUnsigned cs) : IsValue ('-' :: cs)
  | string {cs : List Char} (h : IsString cs) : IsValue cs
  | list {parts : List (List Char)} {cs : List Char} (hparts : ∀ part ∈ parts, IsValue part)
      (h : Parts ']' .true parts cs) : IsValue ('[' :: cs)
  | object {members : List MemberText} {cs : List Char} (hkeys : ∀ m ∈ members, IsString m.key)
      (hvalues : ∀ m ∈ members, IsValue m.value)
      (h : Parts '}' .true (members.map MemberText.text) cs) : IsValue ('{' :: cs)

/-- The texts of a list of things that are spelled in some way. -/
def SpellsList {α : Type} (spells : α → List Char → Prop) (xs : List α) (cs : List Char) : Prop :=
  ∃ parts text, List.Forall₂ spells xs parts ∧ Parts ']' true parts text ∧ cs = '[' :: text

/-- The texts of an object whose members have the given names and the given texts of values. -/
def SpellsObject (members : List (String × List Char)) (cs : List Char) : Prop :=
  ∃ (texts : List MemberText) (text : List Char),
    List.Forall₂ (fun m t => SpellsString m.1 t.key ∧ t.value = m.2) members texts ∧
      Parts '}' true (texts.map MemberText.text) text ∧ cs = '{' :: text

/-! ### What is written -/

/-- The digits of an escape that is written. -/
theorem spellsUnit_control {n : Nat} (h : n < 0x20) :
    SpellsUnit n ['0', '0', hexChar (n / 16), hexChar (n % 16)] := by
  have hall : ∀ k < 0x20, hexValue? ['0', '0', hexChar (k / 16), hexChar (k % 16)] = some k := by
    decide +kernel
  exact ⟨rfl, hall n h⟩

/-- A written character is one of its texts. -/
theorem spellsChar_escaped (c : Char) : SpellsChar c (escaped c) := by
  unfold escaped
  split_ifs with hquote hbackslash hback hfeed hline hreturn htab hcontrol
  · obtain rfl := eq_of_beq hquote
    exact .letter rfl
  · obtain rfl := eq_of_beq hbackslash
    exact .letter rfl
  · obtain rfl := eq_of_beq hback
    exact .letter rfl
  · obtain rfl := eq_of_beq hfeed
    exact .letter rfl
  · obtain rfl := eq_of_beq hline
    exact .letter rfl
  · obtain rfl := eq_of_beq hreturn
    exact .letter rfl
  · obtain rfl := eq_of_beq htab
    exact .letter rfl
  · exact .code (spellsUnit_control hcontrol)
  · rw [beq_iff_eq] at hquote hbackslash
    exact .plain (Nat.le_of_not_lt hcontrol) hquote hbackslash

/-- A quoted text spells it. -/
theorem spellsString_quote (text : String) : SpellsString text (quote text) := by
  refine ⟨text.toList.map escaped, ?_, by rw [quote, List.flatMap_def]; rfl⟩
  rw [List.forall₂_map_right_iff]
  exact List.forall₂_same.mpr fun c _ => spellsChar_escaped c

/-- The start of a line is white space. -/
theorem isBlank_indent (depth : Nat) : IsBlank ('\n' :: indent depth) := by
  intro c hc
  rcases List.mem_cons.mp hc with rfl | hc
  · rfl
  · rw [List.eq_of_mem_replicate hc]
    rfl

/-- Parts on lines of their own behind the first one, and the closing bracket. -/
theorem parts_laterLines (closing : Char) (depth : Nat) (parts : List (List Char)) :
    Parts closing false parts ((parts.flatMap fun part => ',' :: '\n' :: indent (depth + 1) ++ part)
      ++ ('\n' :: indent depth ++ [closing])) := by
  induction parts with
  | nil => exact .close (isBlank_indent depth)
  | cons part parts ih =>
      have hnext : Parts closing false (part :: parts)
          ([] ++ ',' :: ('\n' :: indent (depth + 1) ++ _)) :=
        .next isBlank_nil (isBlank_indent (depth + 1)) ih
      simpa only [List.flatMap_cons, List.cons_append, List.nil_append,
        List.append_assoc] using hnext

/-- All parts but the first have the separator before them. -/
theorem intercalate_cons_eq_flatMap {α : Type} (separator first : List α) (rest : List (List α)) :
    separator.intercalate (first :: rest) =
      first ++ rest.flatMap fun part => separator ++ part := by
  induction rest generalizing first with
  | nil => simp
  | cons part rest ih =>
      rw [List.intercalate_cons_cons, ih, List.flatMap_cons, List.append_assoc,
        List.append_assoc separator]

/-- Parts on lines of their own are parts with commas between them. -/
theorem parts_onLines (opening closing : Char) (depth : Nat) (parts : List (List Char)) :
    ∃ text, onLines opening closing depth parts = opening :: text ∧
      Parts closing true parts text := by
  cases parts with
  | nil => exact ⟨[closing], rfl, .close isBlank_nil⟩
  | cons part parts =>
      refine ⟨_, ?_, .first (isBlank_indent (depth + 1)) (parts_laterLines closing depth parts)⟩
      simp only [onLines, List.map_cons, intercalate_cons_eq_flatMap, List.flatMap_map,
        List.cons_append, List.append_assoc, List.nil_append]

/-- Parts on lines of their own spell a list. -/
theorem spellsList_onLines {α : Type} {spells : α → List Char → Prop} {xs : List α}
    {parts : List (List Char)} (h : List.Forall₂ spells xs parts) (depth : Nat) :
    SpellsList spells xs (onLines '[' ']' depth parts) := by
  obtain ⟨text, htext, hparts⟩ := parts_onLines '[' ']' depth parts
  exact ⟨parts, text, h, hparts, htext⟩

/-- Values are rendered one by one. -/
theorem renderAll_eq_map (depth : Nat) (values : List Value) :
    renderAll depth values = values.map (render depth) := by
  induction values with
  | nil => rfl
  | cons v values ih => rw [renderAll, ih, List.map_cons]

/-- A list of values is spelled as its elements are. -/
theorem spellsList_render {α : Type} {spells : α → List Char → Prop} {toValue : α → Value}
    {depth : Nat} (h : ∀ x, spells x (render (depth + 1) (toValue x))) (xs : List α) :
    SpellsList spells xs (render depth (.list (xs.map toValue))) := by
  rw [render, renderAll_eq_map, List.map_map]
  refine spellsList_onLines ?_ depth
  rw [List.forall₂_map_right_iff]
  exact List.forall₂_same.mpr fun x _ => h x

/-- The text of a member as it is written. -/
def writtenMember (m : String × List Char) : MemberText where
  key := quote m.1
  before := []
  after := [' ']
  value := m.2
  before_blank := isBlank_nil
  after_blank := List.forall_mem_singleton.mpr rfl

/-- Members on lines of their own spell an object. -/
theorem spellsObject_onLines (members : List (String × List Char)) (depth : Nat) :
    SpellsObject members
      (onLines '{' '}' depth (members.map fun m => quote m.1 ++ ':' :: ' ' :: m.2)) := by
  obtain ⟨text, htext, hparts⟩ := parts_onLines '{' '}' depth
    ((members.map writtenMember).map MemberText.text)
  refine ⟨members.map writtenMember, text, ?_, hparts, ?_⟩
  · rw [List.forall₂_map_right_iff]
    exact List.forall₂_same.mpr fun m _ => ⟨spellsString_quote m.1, rfl⟩
  · rw [← htext, List.map_map]
    rfl

end StringHarvest.Json
