import Mathlib
import StringHarvest.Script.Parse.Grammar

/-!
# Readers only go forward

A reader of scripts looks ahead, goes back and reads tokens again in other modes. Still, the tokens
that it leaves behind are in the order of the text. This module says what is kept along the way
(`State.Placed`) and lets the proof rules of `Std.Do` work on readers, with one assertion for the
state that follows a phrase and one for the state in which it fails.
-/

namespace StringHarvest.Script

open StringHarvest.Script.Parser Std.Do

/-! ## Marks among the tokens -/

/-- Whether a token is a punctuation mark. -/
def Token.isMark : Token → Bool
  | .punct _ => true
  | _ => false

/-- A word is no mark. -/
theorem isMark_wordToken (pos : Nat) (cs : List Char) : (wordToken pos cs).1.isMark = false := by
  unfold wordToken
  dsimp only
  split
  · split
    · split <;> rfl
    · rfl
  · rfl

/-- The end of a number makes no mark of it. -/
theorem isMark_endNumber {token : Token} (h : token.isMark = false) (pos length : Nat)
    (rest : List Char) : (endNumber pos token length rest).1.isMark = false := by
  unfold endNumber
  split
  · split
    · rfl
    · exact h
  · exact h

/-- A number with a radix is no mark. -/
theorem isMark_radixToken (base pos : Nat) (cs : List Char) :
    (radixToken base pos cs).1.isMark = false := by
  unfold radixToken
  dsimp only
  split
  · rfl
  · split <;> exact isMark_endNumber rfl ..

/-- Neither is a decimal number. -/
theorem isMark_decimalToken (pos : Nat) (cs : List Char) :
    (decimalToken pos cs).1.isMark = false := by
  unfold decimalToken
  dsimp only
  split
  · split <;> exact isMark_endNumber rfl ..
  · exact isMark_endNumber rfl ..

/-- Neither is any number. -/
theorem isMark_numberToken (pos : Nat) (cs : List Char) :
    (numberToken pos cs).1.isMark = false := by
  unfold numberToken
  split
  case h_7 rest _ _ _ _ _ _ =>
    dsimp only
    split
    · exact isMark_decimalToken ..
    · exact isMark_endNumber rfl ..
  case h_8 => exact isMark_decimalToken ..
  all_goals exact isMark_radixToken ..

/-- A string is no mark. -/
theorem isMark_stringToken (quote : Char) (pos : Nat) (rest : List Char) :
    (stringToken quote pos rest).1.isMark = false := by
  unfold stringToken
  dsimp only
  split <;> rfl

/-- A piece of a template is no mark. -/
theorem isMark_templateToken (pos : Nat) (rest : List Char) :
    (templateToken pos rest).1.isMark = false := by
  unfold templateToken
  dsimp only
  split <;> rfl

/-- A regular expression is no mark. -/
theorem isMark_regexToken (pos : Nat) (rest : List Char) :
    (regexToken pos rest).1.isMark = false := by
  unfold regexToken
  split <;> rfl

/-- An opening parenthesis is read from one. -/
theorem scanPunct_parenL {cs : List Char} {length : Nat}
    (h : scanPunct cs = some (.parenL, length)) : cs.head? = some '(' ∧ length = 1 := by
  unfold scanPunct at h
  split at h
  all_goals try split at h
  all_goals cases h
  exact ⟨rfl, rfl⟩

/-- An opening parenthesis is read only where one stands. -/
theorem scanToken_parenL {pos : Nat} {cs : List Char}
    (h : (scanToken pos cs).1 = .punct .parenL) :
    cs.head? = some '(' ∧ (scanToken pos cs).2 = 1 := by
  have hmark : (scanToken pos cs).1.isMark = true := by rw [h]; rfl
  cases cs with
  | nil => simp [scanToken] at h
  | cons c rest =>
      simp only [scanToken] at h hmark ⊢
      split_ifs at h hmark ⊢
      · exact absurd hmark (by rw [isMark_wordToken]; decide)
      · exact absurd hmark (by rw [isMark_numberToken]; decide)
      · exact absurd hmark (by rw [isMark_stringToken]; decide)
      · exact absurd hmark (by rw [isMark_templateToken]; decide)
      · exact absurd hmark (by rw [isMark_numberToken]; decide)
      · split at h
        · next mark length hpunct =>
            cases h
            exact scanPunct_parenL hpunct
        · cases h

/-- So it is inside a tag. -/
theorem scanTag_parenL {pos : Nat} {cs : List Char} (h : (scanTag pos cs).1 = .punct .parenL) :
    cs.head? = some '(' ∧ (scanTag pos cs).2 = 1 := by
  cases cs with
  | nil => simp [scanTag] at h
  | cons c rest =>
      simp only [scanTag] at h ⊢
      split_ifs at h ⊢
      all_goals first
        | cases h
        | exact scanToken_parenL h

/-! ## Places of states -/

/-- What has been left of a text behind some part of it. -/
def Trivia.Behind (pos : Nat) (cs : List Char) (t : Trivia) : Prop :=
  ∃ k, t.pos = pos + k ∧ t.rest = cs.drop k

/-- What stands behind later text stands behind earlier text. -/
theorem Trivia.Behind.pass {pos : Nat} {cs rest : List Char} {t : Trivia} (n : Nat)
    (hrest : cs.drop n = rest) (h : t.Behind (pos + n) rest) : t.Behind pos cs := by
  obtain ⟨k, hpos, hdrop⟩ := h
  exact ⟨n + k, by omega, by rw [hdrop, ← hrest, List.drop_drop]⟩

/-- White space and comments are passed forwards. -/
theorem behind_skipTrivia (mode : TriviaMode) (pos : Nat) (lineBreak : Bool) (cs : List Char) :
    (skipTrivia mode pos lineBreak cs).Behind pos cs := by
  fun_induction skipTrivia mode pos lineBreak cs
  all_goals first
    | exact ⟨0, rfl, rfl⟩
    | exact .pass 1 rfl ‹_›
    | exact .pass 2 rfl ‹_›
    | exact .pass 3 rfl ‹_›
    | exact .pass 4 rfl ‹_›

/-- A state that belongs to a text: its parts stand where it says, and its token is an opening
parenthesis only where one stands. -/
structure State.Placed (text : List Char) (s : State) : Prop where
  /-- The current token stands at its offset. -/
  here : s.here = text.drop s.start
  /-- What is behind it stands at the offset behind it. -/
  rest : s.rest = text.drop s.stop
  /-- A token does not end before it starts. -/
  start_le_stop : s.start ≤ s.stop
  /-- An opening parenthesis stands where one is read. -/
  paren : s.token = .punct .parenL → s.here.head? = some '(' ∧ s.stop = s.start + 1

section placed

variable {text : List Char} {s : State}

/-- A state that is scanned is in its place, and not before where scanning started. -/
theorem placed_scan {pos : Nat} {cs : List Char} (lineBreak : Bool) (hcs : cs = text.drop pos) :
    (State.scan pos lineBreak cs).Placed text ∧ pos ≤ (State.scan pos lineBreak cs).start := by
  obtain ⟨k, hpos, hrest⟩ := behind_skipTrivia .plain pos lineBreak cs
  have hhere : (skipTrivia .plain pos lineBreak cs).rest =
      text.drop (skipTrivia .plain pos lineBreak cs).pos := by
    rw [hrest, hpos, hcs, List.drop_drop]
  refine ⟨⟨hhere, ?_, Nat.le_add_right _ _, ?_⟩, ?_⟩
  · simp only [State.scan, hhere, List.drop_drop]
  · intro hparen
    obtain ⟨hhead, hlength⟩ := scanToken_parenL hparen
    exact ⟨hhead, congrArg _ hlength⟩
  · simp only [State.scan, hpos]
    omega

/-- So is the next state. -/
theorem State.Placed.next (h : s.Placed text) : s.next.Placed text := (placed_scan false h.rest).1

/-- The next token does not start before the current one. -/
theorem State.Placed.start_le_next (h : s.Placed text) : s.start ≤ s.next.start :=
  h.start_le_stop.trans (placed_scan false h.rest).2

/-- Reading the current token again leaves the state where it is. -/
theorem State.Placed.reread (h : s.Placed text) {read : Token × Nat}
    (hread : read.1 = .punct .parenL → s.here.head? = some '(' ∧ read.2 = 1) :
    (s.reread read).Placed text where
  here := h.here
  rest := by simp only [State.reread, h.here, List.drop_drop]
  start_le_stop := Nat.le_add_right _ _
  paren hparen := by
    obtain ⟨hhead, hlength⟩ := hread hparen
    exact ⟨hhead, congrArg _ hlength⟩

/-- The first state is in its place. -/
theorem placed_first (text : List Char) : (State.first text).Placed text := by
  unfold State.first
  split
  · exact (placed_scan false rfl).1
  · exact (placed_scan true rfl).1

end placed

/-! ## Proof rules -/

/-- What assertions about readers speak of: the context and the state, and the state alone where a
phrase fails. -/
abbrev Shape : PostShape := .arg Context (.except Failure (.arg State .pure))

section rules

variable {α β : Type}

/-- What an outcome has to meet. -/
def Outcome.Meets (Q : PostCond α Shape) (c : Context) : Outcome α → SPred []
  | .done value s => Q.1 value c s
  | .failed failure s => Q.2.1 failure s

/-- The second phrase goes on where the first one ends. -/
theorem bind_eq (p : Parser α) (f : α → Parser β) (c : Context) (s : State) :
    (p >>= f) c s = match p c s with
      | .done value s' => f value c s'
      | .failed failure s' => .failed failure s' := rfl

instance : LawfulMonad Parser := LawfulMonad.mk' _
  (fun x => by
    funext c s
    change (x >>= pure) c s = x c s
    rw [bind_eq]
    cases x c s <;> rfl)
  (fun _ _ => rfl)
  (fun x f g => by
    funext c s
    simp only [bind_eq]
    cases x c s <;> rfl)

/-- The weakest precondition of a reader. It is opened in `wp_apply` only: a specification of a
phrase is to be used and not to be looked through. -/
@[irreducible] def Parser.weakest (p : Parser α) : PredTrans Shape α where
  trans Q c s := (p c s).Meets Q c
  conjunctiveRaw Q₁ Q₂ := SPred.bientails.of_eq (by
    funext c s
    change (p c s).Meets (Q₁ ∧ₚ Q₂) c = spred((p c s).Meets Q₁ c ∧ (p c s).Meets Q₂ c)
    cases p c s <;> rfl)

instance : WP Parser Shape := ⟨Parser.weakest⟩

/-- What a phrase guarantees is met by its outcome. -/
theorem wp_apply (p : Parser α) (Q : PostCond α Shape) (c : Context) (s : State) :
    (wp⟦p⟧ Q) c s = (p c s).Meets Q c := by
  simp only [WP.wp, Parser.weakest]
  rfl

instance : WPMonad Parser Shape where
  wp_pure value := by
    ext Q : 1
    funext c s
    exact wp_apply (pure value) Q c s
  wp_bind p f := by
    ext Q : 1
    funext c s
    change (wp⟦p >>= f⟧ Q) c s = (wp⟦p⟧ (fun a => wp⟦f a⟧ Q, Q.2)) c s
    rw [wp_apply, wp_apply, bind_eq]
    cases p c s with
    | done value s' => exact (wp_apply (f value) Q c s').symm
    | failed failure s' => rfl

/-- A specification of a reader, run by run. -/
theorem triple_iff {p : Parser α} {P : Assertion Shape} {Q : PostCond α Shape} :
    ⦃P⦄ p ⦃Q⦄ ↔ ∀ c s, (P c s).down → ((p c s).Meets Q c).down := by
  change (∀ c s, (P c s).down → ((wp⟦p⟧ Q) c s).down) ↔ _
  simp only [wp_apply]

end rules

end StringHarvest.Script
