import Mathlib
import StringHarvest.Proofs.Script.Trail
import StringHarvest.Script.Parse.Grammar

/-!
# Readers in the order of the text: rules

Every phrase of the grammar either **reads** a piece of a syntax tree or just **passes** some text.
In the first case the stops of the piece follow those that were found before (`Reading.reads`), in
the second case nothing is added (`Reading.passes`). Where a phrase fails, it has not gone back.

Here are the two kinds of specifications, for the basic steps, for the ways to put phrases together
and, as an assumption, for the recursive phrases of a grammar (`Grammar.Ordered`). The rules are
stated for any stops before the phrase, so a proof about a phrase follows its text.
-/

namespace StringHarvest.Script

open StringHarvest.Script.Parser Std.Do

/-! ## Specifications -/

namespace Reading

variable {α : Type}

/-- The state is past the given stops. -/
abbrev past (r : Reading) (lo : Location) (way : List Stop) : Assertion Shape :=
  fun _ s => ⌜r.Past lo way s⌝

/-- The state is past stops that depend on the result; where the phrase fails,
it has not gone back. -/
abbrev finds (r : Reading) (lo : Location) (way : α → List Stop) : PostCond α Shape :=
  (fun value _ s => ⌜r.Past lo (way value) s⌝, fun _ s => ⌜r.Past lo [] s⌝, ⟨⟩)

/-- The phrase passes some text. -/
abbrev passes (r : Reading) (lo : Location) (way : List Stop) : PostCond α Shape :=
  r.finds lo fun _ => way

/-- The phrase reads a piece, whose stops follow. -/
abbrev reads [HasStops α] (r : Reading) (lo : Location) (way : List Stop) : PostCond α Shape :=
  r.finds lo fun piece => way ++ r.stops piece

/-- A round of a loop that collects pieces, the last one first: whether it goes on or gives the
result, the stops of the pieces follow. -/
abbrev collects {σ : Type} [HasStops σ] [HasStops α] (r : Reading) (lo : Location)
    (way : List Stop) : PostCond (List σ ⊕ α) Shape :=
  r.finds lo fun value => value.elim (way ++ r.stops ·.reverse) (way ++ r.stops ·)

end Reading

variable {r : Reading} {lo : Location} {way : List Stop}

/-! ## Basic steps -/

section steps

variable {α : Type}

/-- A phrase passes some text if the state it ends in, either way, is a later one. -/
theorem passes_of_later {p : Parser α}
    (hp : ∀ c s, s.Placed r.text → ∃ s', s'.Placed r.text ∧ s.start ≤ s'.start ∧
      ((∃ value, p c s = .done value s') ∨ ∃ failure, p c s = .failed failure s')) :
    ⦃r.past lo way⦄ p ⦃r.passes lo way⦄ := by
  rw [triple_iff]
  intro c s h
  obtain ⟨s', hplaced, hle, ⟨value, hp⟩ | ⟨failure, hp⟩⟩ := hp c s h.placed
  · rw [hp]
    exact h.later hplaced hle
  · rw [hp]
    exact (h.later hplaced hle).keep (List.nil_sublist way)

/-- To look at the context and the state is to pass nothing. -/
theorem passes_of_look {p : Parser α} (f : Context → State → α)
    (hp : p = fun c s => .done (f c s) s) : ⦃r.past lo way⦄ p ⦃r.passes lo way⦄ :=
  passes_of_later fun c s hs => ⟨s, hs, le_rfl, .inl ⟨f c s, by rw [hp]⟩⟩

/-- To ask for the context is to pass nothing. -/
theorem passes_context : ⦃r.past lo way⦄ context ⦃r.passes lo way⦄ := passes_of_look _ rfl

/-- To ask for the state is to pass nothing. -/
theorem passes_state : ⦃r.past lo way⦄ state ⦃r.passes lo way⦄ := passes_of_look _ rfl

/-- To look at the current token is to pass nothing. -/
theorem passes_token : ⦃r.past lo way⦄ token ⦃r.passes lo way⦄ := passes_of_look _ rfl

/-- To ask where it starts is to pass nothing. -/
theorem passes_position : ⦃r.past lo way⦄ position ⦃r.passes lo way⦄ := passes_of_look _ rfl

/-- To ask whether it starts a line is to pass nothing. -/
theorem passes_onNewLine : ⦃r.past lo way⦄ onNewLine ⦃r.passes lo way⦄ :=
  passes_of_look _ rfl

/-- To ask whether there are types is to pass nothing. -/
theorem passes_typescript : ⦃r.past lo way⦄ typescript ⦃r.passes lo way⦄ :=
  passes_of_look _ rfl

/-- To look for a mark is to pass nothing. -/
theorem passes_atPunct {mark : Punct} : ⦃r.past lo way⦄ atPunct mark ⦃r.passes lo way⦄ :=
  passes_of_look _ rfl

/-- So it is with one of several marks. -/
theorem passes_atAny {marks : List Punct} :
    ⦃r.past lo way⦄ atAny marks ⦃r.passes lo way⦄ :=
  passes_of_look _ rfl

/-- To look for a word is to pass nothing. -/
theorem passes_atWord {text : String} : ⦃r.past lo way⦄ atWord text ⦃r.passes lo way⦄ :=
  passes_of_look _ rfl

/-- So it is with any word. -/
theorem passes_atAnyWord : ⦃r.past lo way⦄ atAnyWord ⦃r.passes lo way⦄ :=
  passes_of_look _ rfl

/-- To look for the end of the text is to pass nothing. -/
theorem passes_atEnd : ⦃r.past lo way⦄ atEnd ⦃r.passes lo way⦄ := passes_of_look _ rfl

/-- To look for a name is to pass nothing. -/
theorem passes_atName : ⦃r.past lo way⦄ atName ⦃r.passes lo way⦄ := passes_of_look _ rfl

/-- To look at the next token is to pass nothing. -/
theorem passes_peek : ⦃r.past lo way⦄ peek ⦃r.passes lo way⦄ := passes_of_look _ rfl

/-- To look for the end of a statement is to pass nothing. -/
theorem passes_atStatementEnd : ⦃r.past lo way⦄ atStatementEnd ⦃r.passes lo way⦄ :=
  passes_of_look _ rfl

/-- Where a phrase fails at once, nothing else has to be shown. -/
theorem finds_of_failed {p : Parser α} (f : State → Failure) (hp : p = fun _ s => .failed (f s) s)
    {found : α → List Stop} : ⦃r.past lo way⦄ p ⦃r.finds lo found⦄ := by
  rw [triple_iff, hp]
  intro c s h
  exact h.keep (List.nil_sublist way)

/-- So it is where a fault is reported at the current token. -/
theorem finds_fail {fault : Fault} {found : α → List Stop} :
    ⦃r.past lo way⦄ (fail fault : Parser α) ⦃r.finds lo found⦄ :=
  finds_of_failed _ rfl

/-- So it is where a fault is reported elsewhere. -/
theorem finds_failAt {offset : Nat} {fault : Fault} {found : α → List Stop} :
    ⦃r.past lo way⦄ (failAt offset fault : Parser α) ⦃r.finds lo found⦄ :=
  finds_of_failed _ rfl

/-- So it is where a phrase fails as another one did. -/
theorem finds_failLike {failure : Failure} {found : α → List Stop} :
    ⦃r.past lo way⦄ (failLike failure : Parser α) ⦃r.finds lo found⦄ :=
  finds_of_failed _ rfl

/-- So it is where something else was wanted. -/
theorem finds_unexpected {wanted : String} {found : α → List Stop} :
    ⦃r.past lo way⦄ (unexpected wanted : Parser α) ⦃r.finds lo found⦄ :=
  finds_of_failed _ rfl

/-- Where there is no failure, nothing is passed. -/
theorem passes_failIf {failure : Option Failure} :
    ⦃r.past lo way⦄ failIf failure ⦃r.passes lo way⦄ := by
  cases failure with
  | none => exact passes_of_look _ rfl
  | some failure => exact finds_of_failed _ rfl

/-- A phrase passes some text that stays where it is or passes the current token. -/
theorem passes_of_next {p : Parser α}
    (hp : ∀ c s, (∃ value, p c s = .done value s ∨ p c s = .done value s.next) ∨
      ∃ failure, p c s = .failed failure s) :
    ⦃r.past lo way⦄ p ⦃r.passes lo way⦄ := by
  refine passes_of_later fun c s hs => ?_
  obtain ⟨value, hp | hp⟩ | ⟨failure, hp⟩ := hp c s
  · exact ⟨s, hs, le_rfl, .inl ⟨value, hp⟩⟩
  · exact ⟨s.next, hs.next, hs.start_le_next, .inl ⟨value, hp⟩⟩
  · exact ⟨s, hs, le_rfl, .inr ⟨failure, hp⟩⟩

/-- The current token is passed. -/
theorem passes_advance : ⦃r.past lo way⦄ advance ⦃r.passes lo way⦄ :=
  passes_of_next fun _ _ => .inl ⟨_, .inr rfl⟩

/-- A mark is passed, if it stands here. -/
theorem passes_eat {mark : Punct} : ⦃r.past lo way⦄ eat mark ⦃r.passes lo way⦄ :=
  passes_of_next fun _ s => by unfold eat; split <;> simp

/-- A word is passed, if it stands here. -/
theorem passes_eatWord {text : String} : ⦃r.past lo way⦄ eatWord text ⦃r.passes lo way⦄ :=
  passes_of_next fun _ s => by unfold eatWord; split <;> simp

/-- The end of a statement is passed, if one stands here. -/
theorem passes_eatStatementEnd : ⦃r.past lo way⦄ eatStatementEnd ⦃r.passes lo way⦄ :=
  passes_of_next fun _ s => by unfold eatStatementEnd; split <;> simp

/-- A mark that must stand here is passed. -/
theorem passes_expect {mark : Punct} : ⦃r.past lo way⦄ expect mark ⦃r.passes lo way⦄ :=
  passes_of_next fun _ s => by unfold expect; split <;> simp

/-- A word that must stand here is passed. -/
theorem passes_expectWord {text : String} :
    ⦃r.past lo way⦄ expectWord text ⦃r.passes lo way⦄ :=
  passes_of_next fun _ s => by unfold expectWord; split <;> simp

/-- Behind an opening parenthesis there is a gap. -/
theorem gap_expect : ⦃r.past lo way⦄ expect .parenL ⦃r.passes lo (way ++ [.gap])⦄ := by
  rw [triple_iff]
  intro c s h
  unfold expect
  split
  · next hparen =>
      refine h.next_of_paren ?_
      cases hs : s.token <;> simp_all [Token.isPunct]
  · exact h.keep (List.nil_sublist way)

/-- The place of the current token can be remembered. -/
theorem marks_position :
    ⦃r.past lo way⦄ position ⦃r.finds lo fun start => r.marked way start⦄ := by
  rw [triple_iff]
  intro c s h
  exact h.mark

/-- So can the place of a state that is kept. -/
theorem marks_state :
    ⦃r.past lo way⦄ state ⦃r.finds lo fun s => r.marked way s.start⦄ := by
  rw [triple_iff]
  intro c s h
  exact h.mark

/-- To read the current token again is to stay. -/
theorem passes_of_reread {p : Parser Unit} (read : State → Token × Nat)
    (hp : p = fun _ s => .done () (s.reread (read s)))
    (hread : ∀ s : State, (read s).1 = .punct .parenL → s.here.head? = some '(' ∧ (read s).2 = 1) :
    ⦃r.past lo way⦄ p ⦃r.passes lo way⦄ := by
  refine passes_of_later fun c s hs => ?_
  exact ⟨_, hs.reread (hread s), le_rfl, .inl ⟨(), by rw [hp]⟩⟩

/-- To read the current token as one in a tag is to stay. -/
theorem passes_retag : ⦃r.past lo way⦄ retag ⦃r.passes lo way⦄ :=
  passes_of_reread _ rfl fun _ => scanTag_parenL

/-- To read it as a regular expression is to stay. -/
theorem passes_rereadRegex : ⦃r.past lo way⦄ rereadRegex ⦃r.passes lo way⦄ := by
  refine passes_of_reread _ rfl fun s hs => ?_
  have hmark := isMark_regexToken s.start (s.here.drop 1)
  rw [hs] at hmark
  cases hmark

/-- To read it as a piece of a template is to stay. -/
theorem passes_rereadTemplate : ⦃r.past lo way⦄ rereadTemplate ⦃r.passes lo way⦄ := by
  refine passes_of_reread _ rfl fun s hs => ?_
  have hmark := isMark_templateToken s.start (s.here.drop 1)
  rw [hs] at hmark
  cases hmark

/-- To split its first mark off is to stay, unless that is a parenthesis. -/
theorem passes_rereadFirst {mark : Punct} (hmark : mark ≠ .parenL) :
    ⦃r.past lo way⦄ rereadFirst mark ⦃r.passes lo way⦄ :=
  passes_of_reread _ rfl fun _ hs => absurd (Token.punct.inj hs) hmark

end steps

/-! ## Combinators -/

section combinators

variable {α β σ : Type}

/-- One phrase after the other. -/
theorem finds_bind {p : Parser α} {q : α → Parser β} {middle : α → List Stop}
    {found : β → List Stop} (hp : ⦃r.past lo way⦄ p ⦃r.finds lo middle⦄)
    (hq : ∀ value, ⦃r.past lo (middle value)⦄ q value ⦃r.finds lo found⦄) :
    ⦃r.past lo way⦄ (p >>= q) ⦃r.finds lo found⦄ :=
  Triple.bind p q hp hq

/-- A value is given on to the next phrase. -/
theorem finds_given {value : α} {q : α → Parser β} {found : β → List Stop}
    (hq : ⦃r.past lo way⦄ q value ⦃r.finds lo found⦄) :
    ⦃r.past lo way⦄ (pure value >>= q) ⦃r.finds lo found⦄ := by
  rwa [pure_bind]

/-- One phrase behind a piece that is read. -/
theorem finds_behind [HasStops α] {p : Parser α} {q : α → Parser β} {found : β → List Stop}
    (hp : ⦃r.past lo way⦄ p ⦃r.reads lo way⦄)
    (hq : ∀ piece, ⦃r.past lo (way ++ r.stops piece)⦄ q piece ⦃r.finds lo found⦄) :
    ⦃r.past lo way⦄ (p >>= q) ⦃r.finds lo found⦄ :=
  finds_bind hp hq

/-- A result is given where the state is past its stops. -/
theorem finds_pure_of {value : α} {found : α → List Stop}
    (h : ∀ {s}, r.Past lo way s → r.Past lo (found value) s) :
    ⦃r.past lo way⦄ (pure value : Parser α) ⦃r.finds lo found⦄ :=
  triple_iff.mpr fun _ _ hpast => h hpast

/-- Of what was found, a result may leave out some. -/
theorem finds_pure {value : α} {found : α → List Stop} (h : (found value).Sublist way) :
    ⦃r.past lo way⦄ (pure value : Parser α) ⦃r.finds lo found⦄ :=
  finds_pure_of fun hpast => hpast.keep h

/-- A phrase may start from other stops, if the state is past those as well. -/
theorem finds_of_past {p : Parser α} {way' : List Stop} {found : α → List Stop}
    (h : ∀ {s}, r.Past lo way s → r.Past lo way' s) (hp : ⦃r.past lo way'⦄ p ⦃r.finds lo found⦄) :
    ⦃r.past lo way⦄ p ⦃r.finds lo found⦄ :=
  triple_iff.mpr fun c s hpast => triple_iff.mp hp c s (h hpast)

/-- Before a phrase, some of the stops can be forgotten. -/
theorem finds_keep {p : Parser α} {way' : List Stop} {found : α → List Stop}
    (h : way'.Sublist way) (hp : ⦃r.past lo way'⦄ p ⦃r.finds lo found⦄) :
    ⦃r.past lo way⦄ p ⦃r.finds lo found⦄ :=
  finds_of_past (fun hpast => hpast.keep h) hp

/-- Of what a phrase finds, some can be left out. -/
theorem finds_mono {p : Parser α} {found found' : α → List Stop}
    (hp : ⦃r.past lo way⦄ p ⦃r.finds lo found⦄)
    (h : ∀ value, (found' value).Sublist (found value)) :
    ⦃r.past lo way⦄ p ⦃r.finds lo found'⦄ := by
  rw [triple_iff] at hp ⊢
  intro c s hpast
  have hafter := hp c s hpast
  cases hrun : p c s <;> rw [hrun] at hafter
  · exact hafter.keep (h _)
  · exact hafter

/-- A mark can be forgotten. -/
theorem reads_of_marked [HasStops α] {p : Parser α} {start : Nat}
    (hp : ⦃r.past lo (r.marked way start)⦄ p ⦃r.reads lo (r.marked way start)⦄) :
    ⦃r.past lo (r.marked way start)⦄ p ⦃r.reads lo way⦄ :=
  finds_mono hp (by simp)

/-- The order in a text does not depend on the context. -/
theorem finds_within {change : Context → Context} {p : Parser α} {found : α → List Stop}
    (hp : ⦃r.past lo way⦄ p ⦃r.finds lo found⦄) :
    ⦃r.past lo way⦄ within change p ⦃r.finds lo found⦄ := by
  rw [triple_iff] at hp ⊢
  intro c s h
  have hafter := hp (change c) s h
  unfold within
  cases hrun : p (change c) s <;> rw [hrun] at hafter <;> exact hafter

/-- Whatever is tried in a look ahead, nothing is passed. -/
theorem passes_lookAhead {p : Parser Bool} :
    ⦃r.past lo way⦄ lookAhead p ⦃r.passes lo way⦄ := by
  refine passes_of_later fun c s hs => ⟨s, hs, le_rfl, .inl ?_⟩
  unfold lookAhead
  cases p c s <;> exact ⟨_, rfl⟩

/-- Of what is read or not, whatever was passed before it is kept; if it is not read, reading goes
on where it was. -/
theorem finds_optionally_of {p : Parser (Option α)} {found found' : Option α → List Stop}
    (hp : ⦃r.past lo way⦄ p ⦃r.finds lo found⦄) (hnone : (found' none).Sublist way)
    (hsome : ∀ value, found' (some value) = found (some value)) :
    ⦃r.past lo way⦄ optionally p ⦃r.finds lo found'⦄ := by
  rw [triple_iff] at hp ⊢
  intro c s h
  have hafter := hp c s h
  unfold optionally
  cases hrun : p c s with
  | failed failure s' => exact h.keep hnone
  | done value s' =>
      rw [hrun] at hafter
      cases value with
      | none => exact h.keep hnone
      | some value =>
          have hfound : r.Past lo (found (some value)) s' := hafter
          rw [← hsome value] at hfound
          exact hfound

/-- What is not read is forgotten. -/
theorem finds_optionally {p : Parser (Option α)} (found : α → List Stop)
    (hp : ⦃r.past lo way⦄ p ⦃r.finds lo fun value => value.elim [] found⦄) :
    ⦃r.past lo way⦄ optionally p ⦃r.finds lo fun value => value.elim way found⦄ :=
  finds_optionally_of hp (List.Sublist.refl way) fun _ => rfl

/-- What is read or not is kept if it is there. -/
theorem reads_optionally [HasStops α] {p : Parser (Option α)}
    (hp : ⦃r.past lo way⦄ p ⦃r.reads lo way⦄) : ⦃r.past lo way⦄ optionally p ⦃r.reads lo way⦄ :=
  finds_optionally_of hp (by simp) fun _ => rfl

/-- What is passed or not is passed. -/
theorem passes_optionally {p : Parser (Option α)} (hp : ⦃r.past lo way⦄ p ⦃r.passes lo way⦄) :
    ⦃r.past lo way⦄ optionally p ⦃r.passes lo way⦄ :=
  finds_optionally_of hp (List.Sublist.refl way) fun _ => rfl

/-- One phrase behind a piece that is read or not: it starts behind the piece, or where that would
have been. -/
theorem finds_ifRead [HasStops α] {p : Parser (Option α)} {q : Option α → Parser β}
    {found : β → List Stop} (hp : ⦃r.past lo way⦄ p ⦃r.reads lo way⦄)
    (hsome : ∀ piece, ⦃r.past lo (way ++ r.stops piece)⦄ q (some piece) ⦃r.finds lo found⦄)
    (hnone : ⦃r.past lo way⦄ q none ⦃r.finds lo found⦄) :
    ⦃r.past lo way⦄ (p >>= q) ⦃r.finds lo found⦄ := by
  refine finds_bind hp fun piece? => ?_
  cases piece? with
  | none => exact finds_keep (by simp) hnone
  | some piece => exact hsome piece

/-- The stops of what an attempt gives; a failure has none. -/
instance [HasStops α] : HasStops (Except Failure α) where
  stops r
    | .ok value => r.stops value
    | .error _ => []

/-- An attempt that succeeds has the stops of what it gives. -/
@[simp] theorem stops_ok [HasStops α] (value : α) :
    r.stops (.ok value : Except Failure α) = r.stops value := rfl

/-- After a failed attempt reading goes on where it stopped, so nothing is lost of what was found
before. -/
theorem reads_attempt [HasStops α] {p : Parser α}
    (hp : ∀ {lo way}, ⦃r.past lo way⦄ p ⦃r.reads lo way⦄) :
    ⦃r.past lo way⦄ attempt p ⦃r.reads lo way⦄ := by
  rw [triple_iff]
  intro c s h
  have hafter := triple_iff.mp (@hp (r.locate s.start) []) c s ⟨h.placed, le_rfl⟩
  unfold attempt
  cases hrun : p c s with
  | done value s' =>
      rw [hrun] at hafter
      exact h.append hafter
  | failed failure s' =>
      rw [hrun] at hafter
      exact h.append hafter

/-- A result without stops leaves what was found before. -/
theorem passes_pure {value : α} : ⦃r.past lo way⦄ (pure value : Parser α) ⦃r.passes lo way⦄ :=
  finds_pure (List.Sublist.refl way)

/-- What is read and not kept is passed. -/
theorem passes_of_reads [HasStops α] {p : Parser α} (hp : ⦃r.past lo way⦄ p ⦃r.reads lo way⦄) :
    ⦃r.past lo way⦄ p ⦃r.passes lo way⦄ :=
  finds_mono hp fun value => List.sublist_append_left way (r.stops value)

/-- A phrase that stands only under a condition, before the next one. -/
theorem finds_when {c : Prop} [Decidable c] {p : Parser α} {next : Parser β} {found : β → List Stop}
    (hp : ⦃r.past lo way⦄ p ⦃r.passes lo way⦄) (hnext : ⦃r.past lo way⦄ next ⦃r.finds lo found⦄) :
    ⦃r.past lo way⦄ (if c then p >>= fun _ => next else next) ⦃r.finds lo found⦄ := by
  split
  · exact finds_bind hp fun _ => hnext
  · exact hnext

/-- One of two phrases, before the next one. -/
theorem finds_choice {c : Prop} [Decidable c] {p q : Parser α} {next : α → Parser β}
    {middle : α → List Stop} {found : β → List Stop} (hp : ⦃r.past lo way⦄ p ⦃r.finds lo middle⦄)
    (hq : ⦃r.past lo way⦄ q ⦃r.finds lo middle⦄)
    (hnext : ∀ value, ⦃r.past lo (middle value)⦄ next value ⦃r.finds lo found⦄) :
    ⦃r.past lo way⦄ (if c then p >>= next else q >>= next) ⦃r.finds lo found⦄ := by
  split
  · exact finds_bind hp hnext
  · exact finds_bind hq hnext

/-- What every step keeps, a loop keeps. -/
theorem finds_repeatFrom {step : σ → Parser (σ ⊕ α)} {kept : σ → List Stop} {found : α → List Stop}
    (hstep : ∀ x, ⦃r.past lo (kept x)⦄ step x ⦃r.finds lo fun value => value.elim kept found⦄)
    (bound : Nat) (start : σ) :
    ⦃r.past lo (kept start)⦄ repeatFrom step bound start ⦃r.finds lo found⦄ := by
  induction bound generalizing start with
  | zero => exact finds_fail
  | succ bound ih =>
      rw [triple_iff]
      intro c s h
      have hafter := triple_iff.mp (hstep start) c s h
      rw [repeatFrom, bind_eq]
      cases hrun : step start c s with
      | failed failure s' =>
          rw [hrun] at hafter
          exact hafter
      | done value s' =>
          rw [hrun] at hafter
          cases value with
          | inl x => exact triple_iff.mp (ih x) c s' hafter
          | inr result => exact hafter

/-- So it does from the beginning on, whatever the bound. -/
theorem finds_repeating {step : σ → Parser (σ ⊕ α)} (kept : σ → List Stop) {found : α → List Stop}
    (hstep : ∀ x, ⦃r.past lo (kept x)⦄ step x ⦃r.finds lo fun value => value.elim kept found⦄)
    (start : σ) :
    ⦃r.past lo (kept start)⦄ repeating start step ⦃r.finds lo found⦄ := by
  rw [triple_iff]
  intro c s h
  exact triple_iff.mp (finds_repeatFrom hstep c.bound start) c s h

/-- A loop that collects pieces, the last one first. -/
theorem reads_repeating [HasStops σ] [HasStops α] {step : List σ → Parser (List σ ⊕ α)}
    (hstep : ∀ done, ⦃r.past lo (way ++ r.stops done.reverse)⦄ step done ⦃r.collects lo way⦄) :
    ⦃r.past lo way⦄ repeating [] step ⦃r.reads lo way⦄ := by
  simpa using finds_repeating (way ++ r.stops ·.reverse) hstep []

/-- A loop that collects pieces and has one to begin with. -/
theorem reads_repeatingFrom [HasStops σ] [HasStops α] {first : σ}
    {step : List σ → Parser (List σ ⊕ α)}
    (hstep : ∀ done, ⦃r.past lo (way ++ r.stops done.reverse)⦄ step done ⦃r.collects lo way⦄) :
    ⦃r.past lo (way ++ r.stops first)⦄ repeating [first] step ⦃r.reads lo way⦄ := by
  simpa using finds_repeating (way ++ r.stops ·.reverse) hstep [first]

/-- A loop that extends a piece. -/
theorem reads_extending [HasStops α] {first : α} {step : α → Parser (α ⊕ α)}
    (hstep : ∀ done, ⦃r.past lo (way ++ r.stops done)⦄ step done
      ⦃r.finds lo fun value => way ++ value.elim r.stops r.stops⦄) :
    ⦃r.past lo (way ++ r.stops first)⦄ repeating first step ⦃r.reads lo way⦄ := by
  refine finds_repeating (way ++ r.stops ·) (fun done => ?_) first
  convert hstep done using 3 with value
  cases value <;> rfl

/-- A loop that passes some text. -/
theorem passes_repeating {start : σ} {step : σ → Parser (σ ⊕ α)}
    (hstep : ∀ x, ⦃r.past lo way⦄ step x ⦃r.passes lo way⦄) :
    ⦃r.past lo way⦄ repeating start step ⦃r.passes lo way⦄ := by
  refine finds_repeating (fun _ => way) (fun x => ?_) start
  convert hstep x using 3 with value
  cases value <;> rfl

end combinators

/-! ## Phrases -/

/-- The stops of an element and of a failure that may follow it are those of the element. -/
instance : HasStops (Expr × Option Failure) := ⟨fun r found => r.stops found.1⟩

/-- An element has its own stops, whatever failure may follow. -/
@[simp] theorem stops_misfit (found : Expr × Option Failure) : r.stops found = r.stops found.1 :=
  rfl

/-- **What is assumed of the recursive phrases** of a grammar: all of them keep to the order. -/
class Grammar.Ordered (g : Grammar) : Prop where
  assign : ∀ {r : Reading} {lo way}, ⦃r.past lo way⦄ g.assign ⦃r.reads lo way⦄
  unary : ∀ {r : Reading} {lo way}, ⦃r.past lo way⦄ g.unary ⦃r.reads lo way⦄
  binaryTail : ∀ {r : Reading} {lo way} {first : Expr} {least : Nat},
    ⦃r.past lo (way ++ r.stops first)⦄ g.binaryTail first least ⦃r.reads lo way⦄
  leftSide : ∀ {r : Reading} {lo way}, ⦃r.past lo way⦄ g.leftSide ⦃r.reads lo way⦄
  newCallee : ∀ {r : Reading} {lo way}, ⦃r.past lo way⦄ g.newCallee ⦃r.reads lo way⦄
  type : ∀ {r : Reading} {lo way}, ⦃r.past lo way⦄ g.type ⦃r.passes lo way⦄
  pattern : ∀ {r : Reading} {lo way}, ⦃r.past lo way⦄ g.pattern ⦃r.passes lo way⦄
  element : ∀ {r : Reading} {lo way}, ⦃r.past lo way⦄ g.element ⦃r.reads lo way⦄
  statement : ∀ {r : Reading} {lo way} {declarations topLevel : Bool},
    ⦃r.past lo way⦄ g.statement declarations topLevel ⦃r.reads lo way⦄
  item : ∀ {r : Reading} {lo way}, ⦃r.past lo way⦄ g.item ⦃r.reads lo way⦄
  namespaceBody : ∀ {r : Reading} {lo way}, ⦃r.past lo way⦄ g.namespaceBody ⦃r.reads lo way⦄

/-- Where nothing can be read, everything keeps to the order. -/
theorem Grammar.ordered_exhausted : Grammar.exhausted.Ordered where
  assign := finds_fail
  unary := finds_fail
  binaryTail := finds_fail
  leftSide := finds_fail
  newCallee := finds_fail
  type := finds_fail
  pattern := finds_fail
  element := finds_fail
  statement := finds_fail
  item := finds_fail
  namespaceBody := finds_fail

section phrases

variable {g : Grammar} [g.Ordered]

/-- The token behind one in a tag is read as one in a tag. -/
theorem passes_advanceTag : ⦃r.past lo way⦄ advanceTag ⦃r.passes lo way⦄ := by
  unfold advanceTag
  exact finds_bind passes_advance fun _ => passes_retag

/-- The end of a statement has no stops. -/
theorem passes_expectStatementEnd : ⦃r.past lo way⦄ expectStatementEnd ⦃r.passes lo way⦄ := by
  unfold expectStatementEnd
  refine finds_bind passes_eatStatementEnd fun _ => ?_
  split
  · exact finds_bind passes_token fun _ => finds_fail
  · exact passes_pure

/-- A `>` is passed, alone or split off a longer mark. -/
theorem passes_expectGreater : ⦃r.past lo way⦄ expectGreater ⦃r.passes lo way⦄ := by
  unfold expectGreater
  have hlonger : ⦃r.past lo way⦄ (rereadFirst .gt >>= fun _ => expect .gt) ⦃r.passes lo way⦄ :=
    finds_bind (passes_rereadFirst (by decide)) fun _ => passes_expect
  refine finds_bind passes_token fun _ => ?_
  split
  case h_6 => exact passes_expect
  all_goals exact hlonger

/-- To look for a `>` is to pass nothing. -/
theorem passes_atGreater : ⦃r.past lo way⦄ atGreater ⦃r.passes lo way⦄ := passes_atAny

/-- A `<` is split off where a longer mark starts with it. -/
theorem passes_splitLess : ⦃r.past lo way⦄ splitLess ⦃r.passes lo way⦄ := by
  unfold splitLess
  refine finds_bind passes_atPunct fun _ => ?_
  split
  · exact passes_rereadFirst (by decide)
  · exact passes_pure

/-- A word of any kind is passed. -/
theorem passes_anyWord : ⦃r.past lo way⦄ anyWord ⦃r.passes lo way⦄ := by
  unfold anyWord
  refine finds_bind passes_token fun _ => ?_
  split
  · exact finds_bind passes_advance fun _ => passes_pure
  · exact finds_fail

/-- A name that is bound is passed. -/
theorem passes_bindingName : ⦃r.past lo way⦄ bindingName ⦃r.passes lo way⦄ := by
  unfold bindingName
  refine finds_bind passes_token fun _ => ?_
  split
  · split
    · exact finds_fail
    · refine finds_bind passes_typescript fun _ => ?_
      split
      · exact finds_fail
      · exact finds_bind passes_advance fun _ => passes_pure
  · exact finds_fail

/-- An expression keeps its stops where `in` is an operator. -/
theorem reads_assignIn : ⦃r.past lo way⦄ g.assignIn ⦃r.reads lo way⦄ := by
  unfold Grammar.assignIn
  exact finds_within Grammar.Ordered.assign

/-- Expressions between commas are read one behind the other. -/
theorem reads_expression : ⦃r.past lo way⦄ g.expression ⦃r.reads lo way⦄ := by
  unfold Grammar.expression
  refine finds_bind Grammar.Ordered.assign fun first => finds_bind passes_atPunct fun _ => ?_
  split
  · refine reads_repeatingFrom fun parts => finds_bind passes_eat fun _ => ?_
    split
    · exact finds_bind Grammar.Ordered.assign fun next => finds_pure (by simp)
    · exact finds_pure (by simp)
  · exact finds_pure (by simp)

/-- So they are where `in` is an operator. -/
theorem reads_expressionIn : ⦃r.past lo way⦄ g.expressionIn ⦃r.reads lo way⦄ := by
  unfold Grammar.expressionIn
  exact finds_within reads_expression

/-- A value without stops is given for the current token. -/
theorem reads_passing {α : Type} [HasStops α] {value : α} (hvalue : r.stops value = []) :
    ⦃r.past lo way⦄ passing value ⦃r.reads lo way⦄ := by
  unfold passing
  exact finds_bind passes_advance fun _ => finds_pure (by simp [hvalue])

end phrases

end StringHarvest.Script
