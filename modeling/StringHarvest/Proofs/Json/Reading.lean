import StringHarvest.Proofs.Json.Grammar

/-!
# Reading the texts of JSON

What the readers make of texts of the grammar. `Reads r before x after` says that a reader gives
`x` and gets from `before` to `after`; places do not matter for that. `Takes r cs x` says that a
reader takes the text `cs` of a value for `x` wherever values stand: behind white space and
before anything that ends a value.

* **Loops** (`Runs`): a run in which every step makes what is left smaller ends within the bound.
* **Strings** (`takes_string`), **lists** (`takes_list`) and their readings as values
  (`takes_value_string`, `takes_value_list`) come back as what their texts spell.
-/

namespace StringHarvest.Json

open Reader

variable {α β σ : Type}

/-- A front is taken up to where the condition fails. -/
theorem takeWhile_append_eq {p : Char → Bool} {front cs : List Char}
    (hfront : ∀ c ∈ front, p c = true) (hcs : ∀ c ∈ cs.head?, p c = false) :
    (front ++ cs).takeWhile p = front := by
  rw [List.takeWhile_append_of_pos hfront]
  cases cs with
  | nil => simp
  | cons c cs => simp [hcs c rfl]

/-! ### Readers from text to text -/

/-- A reader gives a result and gets from one text to another. -/
def Reads (r : Reader α) (before : List Char) (x : α) (after : List Char) : Prop :=
  ∀ place, ∃ place', r ⟨place, before⟩ = .done x ⟨place', after⟩

namespace Reads

/-- A value is given without reading. -/
theorem pure (x : α) (cs : List Char) : Reads (Pure.pure x) cs x cs := fun place => ⟨place, rfl⟩

/-- Readers read one behind the other. -/
theorem bind {r : Reader α} {f : α → Reader β} {before between after : List Char} {x : α} {y : β}
    (h : Reads r before x between) (hf : Reads (f x) between y after) :
    Reads (r >>= f) before y after := by
  intro place
  obtain ⟨place', h⟩ := h place
  obtain ⟨place'', hf⟩ := hf place'
  exact ⟨place'', by rw [← hf]; simp only [Bind.bind, Reader.bind, h]⟩

/-- What is read can be changed. -/
theorem map {r : Reader α} {before after : List Char} {x : α} (h : Reads r before x after)
    (f : α → β) : Reads (do return f (← r)) before (f x) after :=
  h.bind (.pure (f x) after)

/-- One character is passed. -/
theorem advance (c : Char) (cs : List Char) : Reads Reader.advance (c :: cs) () cs :=
  fun _ => ⟨_, rfl⟩

/-- The next character is looked at. -/
theorem peek (cs : List Char) : Reads Reader.peek cs cs.head? cs := fun _ => ⟨_, rfl⟩

/-- So is all that is left. -/
theorem remaining (cs : List Char) : Reads Reader.remaining cs cs cs := fun _ => ⟨_, rfl⟩

/-- As many characters are passed as wanted. -/
theorem skip (passed cs : List Char) : Reads (Reader.skip passed.length) (passed ++ cs) () cs := by
  have hskip : ∀ (passed : List Char) place,
      ∃ place', (⟨place, passed ++ cs⟩ : Cursor).skip passed.length = ⟨place', cs⟩ := by
    intro passed
    induction passed with
    | nil => exact fun place => ⟨place, rfl⟩
    | cons c passed ih => exact fun place => ih _
  intro place
  obtain ⟨place', hplace⟩ := hskip passed place
  exact ⟨place', congrArg (Outcome.done ()) hplace⟩

/-- White space before a text that does not start with some is passed. -/
theorem peekToken {blank cs : List Char} (hblank : IsBlank blank)
    (hcs : ∀ c ∈ cs.head?, isSpace c = false) :
    Reads Reader.peekToken (blank ++ cs) cs.head? cs := by
  intro place
  have htake := takeWhile_append_eq hblank hcs
  obtain ⟨place', hskip⟩ := Reads.skip blank cs place
  have hcursor : (⟨place, blank ++ cs⟩ : Cursor).skip blank.length = ⟨place', cs⟩ := by
    injection hskip
  refine ⟨place', ?_⟩
  simp only [Reader.peekToken, htake, hcursor]

/-- A character behind white space decides how it goes on. -/
theorem token {f : Option Char → Reader α} {blank cs after : List Char} {c : Char} {x : α}
    (hblank : IsBlank blank) (hc : isSpace c = false) (h : Reads (f (some c)) (c :: cs) x after) :
    Reads (Reader.peekToken >>= f) (blank ++ c :: cs) x after :=
  have hfirst : ∀ d ∈ (c :: cs).head?, isSpace d = false := fun _ hd => Option.some.inj hd ▸ hc
  (peekToken hblank hfirst).bind h

/-- The contents are read, and then the ending. -/
theorem enclosed {contents : Reader α} {ending : Reader Unit} {before between after : List Char}
    {x : α} (h : Reads contents before x between) (hend : Reads ending between () after) :
    Reads (Reader.enclosed contents ending) before x after := by
  intro place
  obtain ⟨place', h⟩ := h place
  obtain ⟨place'', hend⟩ := hend place'
  exact ⟨place'', by simp only [Reader.enclosed, h, hend]⟩

/-- The letters of a word are passed. -/
theorem word (letters rest : List Char) :
    Reads (Reader.word letters) (letters ++ rest) () rest := by
  induction letters with
  | nil => exact .pure () rest
  | cons c letters ih =>
      refine (peek _).bind ?_
      simp only [List.cons_append, List.head?_cons, beq_self_eq_true, ↓reduceIte]
      exact (advance c _).bind ih

end Reads

/-! ### Loops -/

/-- A run of a loop in which every step makes a size smaller. -/
inductive Runs (step : σ → Reader (σ ⊕ α)) (size : σ → List Char → Nat) (x : α)
    (after : List Char) :
    σ → List Char → Prop
  | stop {s : σ} {cs : List Char} (h : Reads (step s) cs (.inr x) after) :
    Runs step size x after s cs
  | more {s t : σ} {cs ds : List Char} (h : Reads (step s) cs (.inl t) ds)
      (hsize : size t ds < size s cs) (hrest : Runs step size x after t ds) :
      Runs step size x after s cs

variable {step : σ → Reader (σ ⊕ α)} {x : α} {after : List Char}

/-- A run ends within any bound above its size. -/
theorem Runs.reads {size : σ → List Char → Nat} {s : σ} {cs : List Char}
    (h : Runs step size x after s cs) {bound : Nat} (hbound : size s cs < bound) :
    Reads (repeatFrom step bound s) cs x after := by
  induction h generalizing bound with
  | stop h =>
      obtain ⟨bound, rfl⟩ := Nat.exists_eq_add_one_of_ne_zero (Nat.ne_zero_of_lt hbound)
      exact h.bind (.pure x after)
  | more h hsize hrest ih =>
      obtain ⟨bound, rfl⟩ := Nat.exists_eq_add_one_of_ne_zero (Nat.ne_zero_of_lt hbound)
      exact h.bind (ih (Nat.lt_of_lt_of_le hsize (Nat.le_of_lt_succ hbound)))

/-- The size of a loop every step of which passes something. -/
def textSize (_ : σ) (cs : List Char) : Nat := cs.length

/-- A run of a loop is read. -/
theorem Runs.repeating {s : σ} {cs : List Char} (h : Runs step textSize x after s cs) :
    Reads (Reader.repeating s step) cs x after := fun place =>
  h.reads (Nat.lt_succ_self _) place

/-! ### Values where they stand -/

/-- What may follow a value: white space, a comma, a closing bracket or nothing. -/
def EndsValue (rest : List Char) : Prop :=
  ∀ c ∈ rest.head?, isSpace c = true ∨ c = ',' ∨ c = ']' ∨ c = '}'

/-- A reader takes a text for something wherever values stand. -/
def Takes (r : Reader α) (cs : List Char) (x : α) : Prop :=
  ∀ blank rest, IsBlank blank → EndsValue rest → Reads r (blank ++ (cs ++ rest)) x rest

/-- What is taken can be changed. -/
theorem Takes.map {r : Reader α} {cs : List Char} {x : α} (h : Takes r cs x) (f : α → β) :
    Takes (do return f (← r)) cs (f x) := fun blank rest hblank hrest =>
  (h blank rest hblank hrest).map f

/-! ### Strings -/

/-- Four digits give their unit. -/
theorem reads_hexUnit {n : Nat} {digits : List Char} (h : SpellsUnit n digits) (rest : List Char) :
    Reads hexUnit (digits ++ rest) n rest := by
  obtain ⟨hlength, hvalue⟩ := h
  refine (Reads.remaining _).bind ?_
  have htake : (digits ++ rest).take 4 = digits := List.take_left' hlength
  simp only [htake, hlength, beq_self_eq_true, ↓reduceIte, hvalue]
  rw [← hlength]
  exact (Reads.skip digits rest).bind (.pure n rest)

/-- An escape of a surrogate, which the other one follows. -/
theorem reads_lowSurrogate {h l : Nat} {low : List Char} {c : Char}
    (hlow : SpellsUnit (0xDC00 + l) low) (hl : l < 0x400) (hc : c.toNat = 0x10000 + h * 0x400 + l)
    (rest : List Char) :
    Reads (lowSurrogate (0xD800 + h)) ('\\' :: 'u' :: (low ++ rest)) c rest := by
  have hpass : ∀ (x : Char) cs, Reads (lowSurrogate.pass x) (x :: cs) () cs := by
    intro x cs
    refine (Reads.peek _).bind ?_
    simp only [List.head?_cons, beq_self_eq_true, ↓reduceIte]
    exact Reads.advance x cs
  refine (hpass _ _).bind ((hpass _ _).bind ((reads_hexUnit hlow rest).bind ?_))
  have hin : (decide (0xDC00 + l < 0xDC00) || decide (0xDFFF < 0xDC00 + l)) = false := by
    simp only [Bool.or_eq_false_iff, decide_eq_false_iff_not]
    omega
  have hchar : Char.ofNat (0x10000 + (0xD800 + h - 0xD800) * 0x400 + (0xDC00 + l - 0xDC00)) =
      c := by
    rw [Nat.add_sub_cancel_left, Nat.add_sub_cancel_left, ← hc, Char.ofNat_toNat]
  rw [hin, hchar]
  exact .pure c rest

/-- One step over a string. -/
def stringStep (wanted : Bool) (done : List Char) : Reader (List Char ⊕ String) := do
  match ← peek with
  | none => failHere .endInString
  | some '"' =>
    advance
    pure (.inr (String.ofList done.reverse))
  | some '\\' =>
    advance
    let x ← escape wanted
    pure (.inl (x :: done))
  | some c =>
    if c.toNat < 0x20 then failAfter (if wanted then 1 else 0) .controlCharacter
    else do
      advance
      pure (.inl (c :: done))

/-- The characters of a string are read in a loop. -/
theorem stringBody_eq (wanted : Bool) : stringBody wanted = repeating [] (stringStep wanted) := rfl

section stringStep

variable (wanted : Bool) (done rest : List Char)

/-- A quote ends the string. -/
theorem reads_stringStep_quote :
    Reads (stringStep wanted done) ('"' :: rest) (.inr (String.ofList done.reverse)) rest :=
  (Reads.peek _).bind ((Reads.advance _ _).bind (.pure _ _))

/-- A plain character stands for itself. -/
theorem reads_stringStep_plain {c : Char} (hcontrol : 0x20 ≤ c.toNat) (hquote : c ≠ '"')
    (hbackslash : c ≠ '\\') :
    Reads (stringStep wanted done) (c :: rest) (.inl (c :: done)) rest := by
  refine (Reads.peek _).bind ?_
  rw [List.head?_cons]
  split
  · rename_i heq
    cases heq
  · rename_i heq
    exact absurd (Option.some.inj heq) hquote
  · rename_i heq
    exact absurd (Option.some.inj heq) hbackslash
  · rename_i heq
    obtain rfl := Option.some.inj heq
    rw [if_neg (Nat.not_lt.mpr hcontrol)]
    exact (Reads.advance _ _).bind (.pure _ _)

/-- A backslash starts an escape. -/
theorem reads_stringStep_escape {x : Char} {cs : List Char} (h : Reads (escape wanted) cs x rest) :
    Reads (stringStep wanted done) ('\\' :: cs) (.inl (x :: done)) rest :=
  (Reads.peek _).bind ((Reads.advance _ _).bind (h.bind (.pure _ _)))

/-- A letter behind a backslash stands for its character. -/
theorem reads_escape_letter {c l : Char} (h : plainEscape? l = some c) :
    Reads (escape wanted) (l :: rest) c rest := by
  refine (Reads.peek _).bind ?_
  rw [List.head?_cons]
  split
  · rename_i heq
    cases heq
  · rename_i heq
    rw [Option.some.inj heq] at h
    cases h
  · rename_i heq
    obtain rfl := Option.some.inj heq
    rw [h]
    exact (Reads.advance _ _).bind (.pure _ _)

/-- A code behind a backslash stands for its character. -/
theorem reads_escape_code {x : Char} {cs : List Char} (h : Reads (codeEscape wanted) cs x rest) :
    Reads (escape wanted) ('u' :: cs) x rest :=
  (Reads.peek _).bind ((Reads.advance _ _).bind h)

/-- Each text of a character is read as that character. -/
theorem reads_stringStep_of_spells {c : Char} {piece : List Char} (h : SpellsChar c piece) :
    Reads (stringStep true done) (piece ++ rest) (.inl (c :: done)) rest := by
  cases h with
  | plain hcontrol hquote hbackslash =>
    exact reads_stringStep_plain _ _ _ hcontrol hquote hbackslash
  | letter h => exact reads_stringStep_escape _ _ _ (reads_escape_letter _ _ h)
  | code h =>
      refine reads_stringStep_escape _ _ _ (reads_escape_code _ _ ((reads_hexUnit h rest).bind ?_))
      -- a character is no surrogate
      have hvalid : c.toNat < 0xD800 ∨ 0xDFFF < c.toNat ∧ c.toNat < 0x110000 := c.valid
      have hlow : (decide (0xDC00 ≤ c.toNat) && decide (c.toNat ≤ 0xDFFF)) = false := by
        simp only [Bool.and_eq_false_iff, decide_eq_false_iff_not]
        omega
      have hhigh : (decide (0xD800 ≤ c.toNat) && decide (c.toNat ≤ 0xDBFF)) = false := by
        simp only [Bool.and_eq_false_iff, decide_eq_false_iff_not]
        omega
      rw [hlow, hhigh, Char.ofNat_toNat]
      exact .pure c rest
  | @surrogates _ _ h _ hhigh hlow hh hl hc =>
      rw [List.cons_append, List.cons_append, List.append_assoc]
      refine reads_stringStep_escape _ _ _ (reads_escape_code _ _ ((reads_hexUnit hhigh _).bind ?_))
      have hnotLow : (decide (0xDC00 ≤ 0xD800 + h) && decide (0xD800 + h ≤ 0xDFFF)) = false := by
        simp only [Bool.and_eq_false_iff, decide_eq_false_iff_not]
        omega
      have hisHigh : (decide (0xD800 ≤ 0xD800 + h) && decide (0xD800 + h ≤ 0xDBFF)) = true := by
        simp only [Bool.and_eq_true, decide_eq_true_eq]
        omega
      rw [hnotLow, hisHigh]
      exact reads_lowSurrogate hlow hl hc rest

/-- Where the text is not wanted, every piece gives some character. -/
theorem reads_stringStep_of_isPiece {piece : List Char} (h : IsPiece piece) :
    ∃ x, Reads (stringStep false done) (piece ++ rest) (.inl (x :: done)) rest := by
  cases h with
  | plain hcontrol hquote hbackslash =>
      exact ⟨_, reads_stringStep_plain _ _ _ hcontrol hquote hbackslash⟩
  | letter h => exact ⟨_, reads_stringStep_escape _ _ _ (reads_escape_letter _ _ h)⟩
  | code h =>
      exact ⟨_, reads_stringStep_escape _ _ _
        (reads_escape_code _ _ ((reads_hexUnit h rest).bind (.pure _ _)))⟩

end stringStep

/-- The rest of a string behind its opening quote, from what is already read. -/
theorem runs_stringStep {cs : List Char} {pieces : List (List Char)}
    (h : List.Forall₂ SpellsChar cs pieces) (done rest : List Char) :
    Runs (stringStep true) textSize (String.ofList (done.reverse ++ cs)) rest done
      (pieces.flatten ++ '"' :: rest) := by
  induction h generalizing done with
  | nil => simpa using Runs.stop (reads_stringStep_quote true done rest)
  | @cons c piece cs pieces hpiece hrest ih =>
      have hne : 0 < piece.length := by cases hpiece <;> simp
      have hnext := reads_stringStep_of_spells done (pieces.flatten ++ '"' :: rest) hpiece
      rw [List.flatten_cons, List.append_assoc]
      refine .more hnext ?_ (by simpa using ih (c :: done))
      simp only [textSize, List.length_append]
      omega

/-- So a string that is not wanted is passed. -/
theorem runs_stringStep_unwanted {pieces : List (List Char)} (h : ∀ piece ∈ pieces, IsPiece piece)
    (done rest : List Char) :
    ∃ x, Runs (stringStep false) textSize x rest done (pieces.flatten ++ '"' :: rest) := by
  induction pieces generalizing done with
  | nil => exact ⟨_, .stop (reads_stringStep_quote false done rest)⟩
  | cons piece pieces ih =>
      obtain ⟨hpiece, hpieces⟩ := List.forall_mem_cons.mp h
      have hne : 0 < piece.length := by cases hpiece <;> simp
      obtain ⟨c, hnext⟩ := reads_stringStep_of_isPiece done (pieces.flatten ++ '"' :: rest) hpiece
      obtain ⟨x, hruns⟩ := ih hpieces (c :: done)
      rw [List.flatten_cons, List.append_assoc]
      refine ⟨x, .more hnext ?_ hruns⟩
      simp only [textSize, List.length_append]
      omega

/-- A text of a string starts with a quote, behind which the string can be read. -/
theorem reads_stringBody {text : String} {cs : List Char} (h : SpellsString text cs) :
    ∃ body, cs = '"' :: body ∧ ∀ rest, Reads (stringBody true) (body ++ rest) text rest := by
  obtain ⟨pieces, hpieces, rfl⟩ := h
  refine ⟨pieces.flatten ++ ['"'], rfl, fun rest => ?_⟩
  have hruns := runs_stringStep hpieces [] rest
  rw [List.reverse_nil, List.nil_append, String.ofList_toList] at hruns
  rw [List.append_assoc, stringBody_eq]
  exact hruns.repeating

/-- It is passed up to its last quote. -/
theorem reads_stringBody_unwanted {cs : List Char} (h : IsString cs) :
    ∃ body, cs = '"' :: body ∧ ∀ rest, ∃ x, Reads (stringBody false) (body ++ rest) x rest := by
  obtain ⟨pieces, hpieces, rfl⟩ := h
  refine ⟨pieces.flatten ++ ['"'], rfl, fun rest => ?_⟩
  obtain ⟨x, hruns⟩ := runs_stringStep_unwanted hpieces [] rest
  rw [List.append_assoc, stringBody_eq]
  exact ⟨x, hruns.repeating⟩

/-- A string is taken where its text is wanted. -/
theorem takes_string {text : String} {cs : List Char} (h : SpellsString text cs) (wanted : String) :
    Takes (string wanted) cs text := by
  intro blank rest hblank _
  obtain ⟨body, rfl, hbody⟩ := reads_stringBody h
  exact .token hblank rfl ((Reads.advance _ _).bind (hbody rest))

/-- So it is as a value. -/
theorem takes_value_string {text : String} {cs : List Char} (h : SpellsString text cs)
    (depth : Nat) : Takes (value (depth + 1)) cs (.string text) := by
  intro blank rest hblank _
  obtain ⟨body, rfl, hbody⟩ := reads_stringBody h
  exact .token hblank rfl ((Reads.advance _ _).bind ((hbody rest).map Value.string))

/-! ### Lists -/

/-- What the text of a value may start with. -/
def StartsValue (cs : List Char) : Prop :=
  ∃ c rest, cs = c :: rest ∧ isSpace c = false ∧ c ≠ ']' ∧ c ≠ '}'

/-- A value starts with a character that is neither white space nor a closing bracket. -/
theorem startsValue_cons {c : Char} (h : isSpace c = false ∧ c ≠ ']' ∧ c ≠ '}') (rest : List Char) :
    StartsValue (c :: rest) := ⟨c, rest, rfl, h⟩

/-- A string starts a value. -/
theorem SpellsString.startsValue {text : String} {cs : List Char} (h : SpellsString text cs) :
    StartsValue cs := by
  obtain ⟨_, -, rfl⟩ := h
  exact startsValue_cons (by decide) _

/-- So does an object. -/
theorem SpellsObject.startsValue {members : List (String × List Char)} {cs : List Char}
    (h : SpellsObject members cs) : StartsValue cs := by
  obtain ⟨_, text, -, -, rfl⟩ := h
  exact startsValue_cons (by decide) text

/-- White space may stand before what ends a value. -/
theorem IsBlank.endsValue {blank rest : List Char} (h : IsBlank blank) (hrest : EndsValue rest) :
    EndsValue (blank ++ rest) := by
  cases blank with
  | nil => exact hrest
  | cons c blank =>
      intro d hd
      obtain rfl := Option.some.inj hd
      exact .inl (h c List.mem_cons_self)

/-- A comma or a closing bracket ends a value. -/
theorem endsValue_cons {c : Char} (h : c = ',' ∨ c = ']' ∨ c = '}') (rest : List Char) :
    EndsValue (c :: rest) := by
  intro d hd
  obtain rfl := Option.some.inj hd
  exact .inr h

/-- What follows a part ends its value. -/
theorem Parts.endsValue {closing : Char} (hclosing : closing = ']' ∨ closing = '}')
    {parts : List (List Char)} {cs : List Char} (h : Parts closing false parts cs)
    (rest : List Char) : EndsValue (cs ++ rest) := by
  cases h with
  | close hblank =>
      rw [List.append_assoc]
      exact hblank.endsValue (endsValue_cons (.inr hclosing) rest)
  | next hbefore hafter hrest =>
      rw [List.append_assoc]
      exact hbefore.endsValue (endsValue_cons (.inl rfl) _)

/-- Behind the last element there is no other one. -/
theorem Parts.reads_nextElement_nil {isFirst : Bool} {cs : List Char} (h : Parts ']' isFirst [] cs)
    (rest : List Char) : Reads (nextElement isFirst) (cs ++ rest) false (']' :: rest) := by
  cases h with
  | close hblank =>
      rw [List.append_assoc]
      exact .token hblank rfl (.pure _ _)

/-- The next part of a list is found behind what separates it from the part before. -/
theorem Parts.reads_nextElement {isFirst : Bool} {part cs : List Char} {parts : List (List Char)}
    (h : Parts ']' isFirst (part :: parts) cs) (hpart : StartsValue part) :
    ∃ ds, Parts ']' false parts ds ∧ ds.length < cs.length ∧
      ∀ rest, Reads (nextElement isFirst) (cs ++ rest) true (part ++ (ds ++ rest)) := by
  obtain ⟨c, part, rfl, hspace, hend, -⟩ := hpart
  cases h with
  | @first _ _ ds _ hblank hrest =>
      refine ⟨ds, hrest, by simp only [List.length_append, List.length_cons]; omega, fun rest => ?_⟩
      rw [List.append_assoc, List.append_assoc]
      refine .token hblank hspace ?_
      split
      · rename_i heq
        cases heq
      · rename_i heq
        exact absurd (Option.some.inj heq) hend
      · exact .pure _ _
  | @next _ _ _ ds _ hbefore hafter hrest =>
      refine ⟨ds, hrest, by simp only [List.length_append, List.length_cons]; omega, fun rest => ?_⟩
      rw [List.append_assoc, List.cons_append, List.append_assoc, List.append_assoc]
      refine .token hbefore rfl ((Reads.advance _ _).bind (.token hafter hspace ?_))
      split
      · rename_i heq
        exact absurd (Option.some.inj heq) hend
      · exact .pure _ _
      · rename_i heq
        cases heq

/-- One step over a list. -/
def elementStep (one : Reader α) (done : List α) : Reader (List α ⊕ List α) := do
  if ← nextElement done.isEmpty then do
    let x ← one
    pure (.inl (x :: done))
  else pure (.inr done.reverse)

/-- The elements of a list are read in a loop. -/
theorem elements_eq (one : Reader α) :
    elements one = enclosed (repeating [] (elementStep one)) listEnd := rfl

/-- The rest of a list behind its opening bracket, from what is already read. -/
theorem runs_elementStep {one : Reader α} {xs : List α} {parts : List (List Char)} {cs : List Char}
    (done : List α) (h : Parts ']' done.isEmpty parts cs)
    (hparts : List.Forall₂ (fun x part => Takes one part x ∧ StartsValue part) xs parts)
    (rest : List Char) :
    Runs (elementStep one) textSize (done.reverse ++ xs) (']' :: rest) done (cs ++ rest) := by
  induction hparts generalizing done cs with
  | nil =>
      rw [List.append_nil]
      exact .stop ((h.reads_nextElement_nil rest).bind (.pure _ _))
  | @cons x part xs _ hx _ ih =>
      obtain ⟨ds, hrest, hsize, hnext⟩ := h.reads_nextElement hx.2
      have hone := hx.1 [] (ds ++ rest) isBlank_nil (hrest.endsValue (.inl rfl) rest)
      have hruns := ih (x :: done) hrest
      rw [List.reverse_cons, List.append_assoc] at hruns
      refine .more ((hnext rest).bind (hone.bind (.pure _ _))) ?_ hruns
      simpa [textSize] using hsize

/-- They are read if each of them is taken. -/
theorem reads_elements {one : Reader α} {parts : List (List Char)} {cs : List Char}
    (h : Parts ']' true parts cs) {xs : List α}
    (hparts : List.Forall₂ (fun x part => Takes one part x ∧ StartsValue part) xs parts)
    (rest : List Char) : Reads (elements one) (cs ++ rest) xs rest := by
  have hruns := runs_elementStep [] h hparts rest
  have hend : Reads listEnd (']' :: rest) () rest := .token isBlank_nil rfl (.advance _ _)
  rw [elements_eq]
  exact hruns.repeating.enclosed hend

/-- **A list** of things that are read as what they are spelled for is read as
what it is spelled for. -/
theorem takes_list {one : Reader α} {spells : α → List Char → Prop} {xs : List α} {cs : List Char}
    (h : SpellsList spells xs cs)
    (hone : ∀ x part, spells x part → Takes one part x ∧ StartsValue part) :
    Takes (list one) cs xs := by
  intro blank rest hblank _
  obtain ⟨parts, text, hparts, htext, rfl⟩ := h
  have helements := reads_elements htext (hparts.imp hone) rest
  exact .token hblank rfl ((Reads.advance _ _).bind helements)

/-- A list of strings is taken as a value. -/
theorem takes_value_list {texts : List String} {cs : List Char}
    (h : SpellsList SpellsString texts cs) (depth : Nat) :
    Takes (value (depth + 2)) cs (.list (texts.map Value.string)) := by
  intro blank rest hblank _
  obtain ⟨parts, text, hparts, htext, rfl⟩ := h
  have hstrings : List.Forall₂ (fun x part => Takes (value (depth + 1)) part x ∧ StartsValue part)
      (texts.map Value.string) parts := by
    rw [List.forall₂_map_left_iff]
    exact hparts.imp fun _ _ h => ⟨takes_value_string h depth, h.startsValue⟩
  exact .token hblank rfl
    ((Reads.advance _ _).bind ((reads_elements htext hstrings rest).map Value.list))

/-! ### Objects -/

/-- Behind the last member there is no other one. -/
theorem Parts.reads_nextMember_nil {isFirst : Bool} {cs : List Char} (h : Parts '}' isFirst [] cs)
    (rest : List Char) : Reads (nextMember isFirst) (cs ++ rest) false ('}' :: rest) := by
  cases h with
  | close hblank =>
      rw [List.append_assoc]
      exact .token hblank rfl (.pure _ _)

/-- The next member of an object is found behind what separates it from the member before. -/
theorem Parts.reads_nextMember {isFirst : Bool} {body cs : List Char} {parts : List (List Char)}
    (h : Parts '}' isFirst (('"' :: body) :: parts) cs) :
    ∃ ds, Parts '}' false parts ds ∧ ds.length < cs.length ∧
      ∀ rest, Reads (nextMember isFirst) (cs ++ rest) true ('"' :: (body ++ (ds ++ rest))) := by
  cases h with
  | @first _ _ ds _ hblank hrest =>
      refine ⟨ds, hrest, by simp only [List.length_append, List.length_cons]; omega, fun rest => ?_⟩
      rw [List.append_assoc, List.append_assoc]
      exact .token hblank rfl (.pure _ _)
  | @next _ _ _ ds _ hbefore hafter hrest =>
      refine ⟨ds, hrest, by simp only [List.length_append, List.length_cons]; omega, fun rest => ?_⟩
      rw [List.append_assoc, List.cons_append, List.append_assoc, List.append_assoc]
      exact .token hbefore rfl ((Reads.advance _ _).bind (.token hafter rfl (.pure _ _)))

/-- The white space around the colon of a member belongs to the member. -/
theorem reads_colon (m : MemberText) (rest : List Char) :
    Reads colon (m.before ++ ':' :: rest) () rest :=
  .token m.before_blank rfl (.advance _ _)

end StringHarvest.Json
