import StringHarvest.Proofs.Script.CallStatement

/-!
# Cutting written text into tokens

How comment lines and string literals are written in a script, and that the reader of
tokens finds again what was written. A text is cut alike wherever it stands, so `Lexes`
quantifies over the offset; a lemma for a piece of text takes what stands behind it as a
parameter and says nothing about it.

**Main results**: `lexes_call`, the tokens of a call of literals, and `scan_comments`, that comment
lines above are passed.
-/

namespace StringHarvest.Script

open Text

/-! ## String literals -/

/-- A character as it is written between double quotes. -/
def escaped (c : Char) : List Char :=
  if c = '\\' then ['\\', '\\']
  else if c = '"' then ['\\', '"']
  else if c = '\n' then ['\\', 'n']
  else if c = '\r' then ['\\', 'r']
  else [c]

/-- A text as a string literal. -/
def quoted (text : String) : List Char := '"' :: text.toList.flatMap escaped ++ ['"']

/-- An escape by one letter, if the letter opens no longer one. -/
theorem scanString_letter {quote c : Char} (hx : c ≠ 'x') (hu : c ≠ 'u')
    (hbreak : isLineBreak c = false) (hdigit : isDigitOf 8 c = false) (taken : Nat)
    (acc : List Nat) (rest : List Char) :
    scanString quote .text taken acc ('\\' :: c :: rest) =
      scanString quote .text (taken + 2) (simpleEscape c :: acc) rest := by
  have hr : c ≠ '\r' := by
    rintro rfl
    exact absurd hbreak (by decide)
  -- octal escapes look two characters ahead
  rcases rest with _ | ⟨d, _ | ⟨e, rest⟩⟩ <;> simp [scanString, hx, hu, hr, hbreak, hdigit]

/-- A written character is read back. -/
theorem scanString_escaped (c : Char) (taken : Nat) (acc : List Nat) (rest : List Char) :
    scanString '"' .text taken acc (escaped c ++ rest) =
      scanString '"' .text (taken + (escaped c).length) (c.toNat :: acc) rest := by
  by_cases hspecial : c ∈ ['\\', '"', '\n', '\r']
  · simp only [List.mem_cons, List.not_mem_nil, or_false] at hspecial
    rcases hspecial with rfl | rfl | rfl | rfl <;>
      exact scanString_letter (by decide) (by decide) (by decide) (by decide) _ _ _
  · simp only [List.mem_cons, List.not_mem_nil, or_false, not_or] at hspecial
    obtain ⟨hslash, hquote, hn, hr⟩ := hspecial
    simp [escaped, scanString, hslash, hquote, hn, hr]

/-- The characters of a quoted text are scanned up to its quote. -/
theorem scanString_quoted (cs : List Char) (taken : Nat) (acc : List Nat) (rest : List Char) :
    scanString '"' .text taken acc (cs.flatMap escaped ++ '"' :: rest) =
      ⟨.ok ((cs.map Char.toNat).reverse ++ acc), taken + (cs.flatMap escaped).length + 1⟩ := by
  induction cs generalizing taken acc with
  | nil => simp [scanString]
  | cons c cs ih =>
      rw [List.flatMap_cons, List.append_assoc, scanString_escaped, ih]
      simp [Nat.add_assoc]

/-- No character is half of a surrogate pair. -/
theorem toNat_notMem_surrogates (c : Char) : ¬ (0xD800 ≤ c.toNat ∧ c.toNat ≤ 0xDFFF) := by
  have hc : c.toNat < 0xD800 ∨ 0xDFFF < c.toNat ∧ c.toNat < 0x110000 := c.valid
  omega

/-- Characters are told by their code points. -/
theorem joinCodePoints_map_toNat (cs : List Char) :
    joinCodePoints (cs.map Char.toNat) = some cs := by
  induction cs with
  | nil => rfl
  | cons c cs ih =>
      have hc := toNat_notMem_surrogates c
      cases cs with
      | nil =>
          rw [List.map_singleton, joinCodePoints, if_neg (by simpa using hc), Char.ofNat_toNat]
      | cons d ds =>
          rw [List.map_cons, List.map_cons, joinCodePoints, ← List.map_cons, ih,
            if_neg (by simp; omega), if_neg (by simp; omega), Option.map_some, Char.ofNat_toNat]

/-- A quoted text is scanned as a string. -/
theorem scanToken_quoted (text : String) (pos : Nat) (rest : List Char) :
    scanToken pos (quoted text ++ rest) = (.string (some text), (quoted text).length) := by
  have hname : isNameStart '"' = false := by decide
  have hstring : stringToken '"' pos (text.toList.flatMap escaped ++ '"' :: rest) =
      (.string (some text), (quoted text).length) := by
    rw [stringToken, scanString_quoted]
    simp [joinCodePoints_map_toNat, quoted, Nat.add_comm 1]
  simp [quoted, scanToken, hname] at hstring ⊢
  exact hstring

/-! ## Tokens of a text -/

/-- The tokens of a text, wherever it stands. -/
def Lexes (text : List Char) (ts : List Token) : Prop :=
  ∀ pos lineBreak, Spells (State.scan pos lineBreak text) ts

/-- Whether no white space and no comment starts with a character. -/
def isSolid (c : Char) : Bool :=
  c != '/' && c != '<' && c != '-' && !isLineBreak c && !isSpace c

/-- Whether only a punctuation mark starts with a character. -/
def isMark (c : Char) : Bool :=
  isSolid c && !isNameStart c && c != '\\' && !c.isDigit && c != '"' && c != '\'' && c != '\x60' &&
    c != '.'

/-- Nothing is skipped before a solid character. -/
theorem skipTrivia_solid {c : Char} (h : isSolid c = true) (pos : Nat) (lineBreak : Bool)
    (rest : List Char) :
    skipTrivia .plain pos lineBreak (c :: rest) = ⟨pos, lineBreak, c :: rest⟩ := by
  simp only [isSolid, Bool.and_eq_true, bne_iff_ne, ne_eq, Bool.not_eq_true'] at h
  obtain ⟨⟨⟨⟨hslash, hless⟩, hdash⟩, hbreak⟩, hspace⟩ := h
  simp [skipTrivia, hslash, hless, hdash, hbreak, hspace]

section lexes

variable {rest : List Char} {ts : List Token} (hrest : Lexes rest ts)

include hrest

/-- A piece of text that is one token, before any other text. -/
theorem lexes_cons (c : Char) (cs : List Char) {t : Token} (hc : isSolid c = true)
    (ht : ∀ pos, scanToken pos (c :: cs ++ rest) = (t, (c :: cs).length)) :
    Lexes (c :: cs ++ rest) (t :: ts) := by
  intro pos lineBreak
  have hscan : State.scan pos lineBreak (c :: cs ++ rest) =
      ⟨t, pos, lineBreak, c :: cs ++ rest, pos + (c :: cs).length, rest⟩ := by
    rw [List.cons_append] at ht ⊢
    simp [State.scan, skipTrivia_solid hc, ht]
  rw [hscan]
  exact ⟨rfl, hrest _ _⟩

/-- A punctuation mark of one character. -/
theorem lexes_punct (c : Char) {mark : Punct} (hc : isMark c = true)
    (hmark : scanPunct (c :: rest) = some (mark, 1)) : Lexes (c :: rest) (.punct mark :: ts) := by
  simp only [isMark, Bool.and_eq_true, bne_iff_ne, ne_eq, Bool.not_eq_true'] at hc
  obtain ⟨⟨⟨⟨⟨⟨⟨hsolid, hname⟩, hslash⟩, hdigit⟩, hquote⟩, hquote'⟩, htemplate⟩, hdot⟩ := hc
  refine lexes_cons hrest c [] hsolid fun pos => ?_
  simp [scanToken, hname, hslash, hdigit, hquote, hquote', htemplate, hdot, hmark]

/-- A space is skipped. -/
theorem lexes_space : Lexes (' ' :: rest) ts := by
  intro pos lineBreak
  have hscan : State.scan pos lineBreak (' ' :: rest) = State.scan (pos + 1) lineBreak rest := by
    simp [State.scan, skipTrivia, isLineBreak, isSpace]
  rw [hscan]
  exact hrest _ _

/-- A quoted text is one token. -/
theorem lexes_quoted (text : String) :
    Lexes (quoted text ++ rest) (.string (some text) :: ts) :=
  lexes_cons hrest '"' _ (by decide) fun pos => scanToken_quoted text pos rest

/-- A plus sign between spaces is one token. -/
theorem lexes_plus : Lexes ([' ', '+', ' '] ++ rest) (.punct .plus :: ts) :=
  lexes_space (lexes_punct (lexes_space hrest) '+' (by decide) rfl)

/-- The name and the parenthesis are two tokens. -/
theorem lexes_opening :
    Lexes (['t', 'r', '('] ++ rest) (.word "tr" :: .punct .parenL :: ts) := by
  refine lexes_cons (lexes_punct hrest '(' (by decide) rfl) 't' ['r'] (by decide) fun pos => ?_
  have hname : isNameStart 't' = true ∧ isNamePart 't' = true ∧ isNamePart 'r' = true ∧
      isNamePart '(' = false := by decide
  simp [scanToken, hname, wordToken]

end lexes

/-- The other parenthesis and the semicolon are the last ones. -/
theorem lexes_closing : Lexes [')', ';'] [.punct .parenR, .punct .semi, .ended] := by
  have hend : Lexes [] [.ended] := fun _ _ => ⟨rfl, trivial⟩
  exact lexes_punct (lexes_punct hend ';' (by decide) rfl) ')' (by decide) rfl

/-- A call of `tr` with a sum of string literals, as it is written. -/
def writtenCall (first : String) (texts : List String) : List Char :=
  ['t', 'r', '('] ++ (quoted first ++ (texts.flatMap fun text => [' ', '+', ' '] ++ quoted text)) ++
    [')', ';']

/-- **The tokens of a written call.** -/
theorem lexes_call (first : String) (texts : List String) :
    Lexes (writtenCall first texts) (callTokens first texts) := by
  have hsummands : Lexes ((texts.flatMap fun text => [' ', '+', ' '] ++ quoted text) ++ [')', ';'])
      (texts.flatMap summand ++ [.punct .parenR, .punct .semi, .ended]) := by
    induction texts with
    | nil => exact lexes_closing
    | cons text texts ih =>
        rw [List.flatMap_cons, List.flatMap_cons, List.append_assoc, List.append_assoc,
          List.append_assoc]
        exact lexes_plus (lexes_quoted ih text)
  rw [writtenCall, List.append_assoc, List.append_assoc]
  exact lexes_opening (lexes_quoted hsummands first)

/-- No trivia stands before a written call. -/
theorem start_writtenCall (pos : Nat) (lineBreak : Bool) (first : String) (texts : List String) :
    (State.scan pos lineBreak (writtenCall first texts)).start = pos := by
  have hskip := skipTrivia_solid (by decide : isSolid 't' = true) pos lineBreak
  simp only [State.scan, writtenCall, List.cons_append, hskip]

/-- A call is longer than the number of its texts. -/
theorem length_lt_writtenCall (first : String) (texts : List String) :
    texts.length < (writtenCall first texts).length := by
  have hsummands : texts.length ≤
      (texts.flatMap fun text => [' ', '+', ' '] ++ quoted text).length := by
    induction texts with
    | nil => exact Nat.le_refl 0
    | cons text texts ih =>
        rw [List.flatMap_cons, List.length_append, List.length_append, List.length_cons]
        simp only [List.length_cons]
        omega
  simp only [writtenCall, List.length_append, List.length_cons]
  omega

/-! ## Comment lines -/

/-- A comment behind its mark. -/
def marked (comment : String) : List Char := '/' :: '/' :: '/' :: comment.toList

/-- A comment as a line of its own. -/
def commentLine (comment : String) : List Char := marked comment ++ ['\n']

/-- A comment is skipped up to the end of its line. -/
theorem skipTrivia_lineComment {cs : List Char} (h : ∀ c ∈ cs, isLineBreak c = false) (pos : Nat)
    (lineBreak : Bool) (rest : List Char) :
    skipTrivia .lineComment pos lineBreak (cs ++ '\n' :: rest) =
      skipTrivia .plain (pos + cs.length + 1) true rest := by
  induction cs generalizing pos with
  | nil => simp [skipTrivia, isLineBreak]
  | cons c cs ih =>
      rw [List.cons_append, skipTrivia, if_neg (by simp [h c List.mem_cons_self]),
        ih fun d hd => h d (List.mem_cons_of_mem _ hd), List.length_cons]
      congr 1
      omega

/-- So a line with a comment is skipped. -/
theorem skipTrivia_commentLine {comment : String}
    (h : ∀ c ∈ comment.toList, isLineBreak c = false) (pos : Nat) (lineBreak : Bool)
    (rest : List Char) :
    skipTrivia .plain pos lineBreak (commentLine comment ++ rest) =
      skipTrivia .plain (pos + (commentLine comment).length) true rest := by
  have hslash : isLineBreak '/' = false := by decide
  simp only [commentLine, marked, List.cons_append, List.nil_append, List.append_assoc, skipTrivia,
    hslash, Bool.false_eq_true, if_false]
  rw [skipTrivia_lineComment h]
  congr 1
  simp only [List.length_cons, List.length_append, List.length_nil]
  omega

/-- The first token behind comment lines is the first one of what follows, with its offset moved by
their length. -/
theorem scan_comments {comments : List String}
    (h : ∀ comment ∈ comments, ∀ c ∈ comment.toList, isLineBreak c = false) (pos : Nat)
    (lineBreak : Bool) (rest : List Char) :
    ∃ lineBreak', State.scan pos lineBreak (comments.flatMap commentLine ++ rest) =
      State.scan (pos + (comments.flatMap commentLine).length) lineBreak' rest := by
  induction comments generalizing pos lineBreak with
  | nil => exact ⟨lineBreak, rfl⟩
  | cons comment comments ih =>
      obtain ⟨lineBreak', hrest⟩ := ih (fun d hd => h d (List.mem_cons_of_mem _ hd))
        (pos + (commentLine comment).length) true
      refine ⟨lineBreak', ?_⟩
      rw [List.flatMap_cons, List.length_append, ← Nat.add_assoc, ← hrest, List.append_assoc]
      simp only [State.scan, skipTrivia_commentLine (h comment List.mem_cons_self)]

end StringHarvest.Script
