import StringHarvest.Proofs.Script.Progress
import StringHarvest.Proofs.Script.Stops

/-!
# Trails

What a reader has found so far is a list of stops along the text, and the reader stands behind the
last of them. A **trail** (`Trail`) says that the stops are in order: marks may coincide with what
follows them, while something is passed at every gap and at every call. A state is **past** some
stops (`Reading.Past`) if it belongs to the text and a trail leads to it.

Stops can be left out (`Past.keep`); passing tokens never leads back (`Past.later`); and a call
whose callee and arguments are on the trail can be put there in their place (`Past.call`).
-/

namespace StringHarvest.Script

/-! ## Trails -/

/-- Whether a list of stops leads from one place to another. -/
def Trail : Location → List Stop → Location → Prop
  | lo, [], hi => lo ≤ hi
  | lo, .mark place :: rest, hi => lo ≤ place ∧ Trail place rest hi
  | lo, .gap :: rest, hi => ∃ next, lo < next ∧ Trail next rest hi
  | lo, .call found :: rest, hi =>
    ∃ place ∈ found.location, lo ≤ place ∧ ∃ next, place < next ∧ Trail next rest hi

namespace Trail

variable {lo lo' hi hi' : Location} {way way' : List Stop}

/-- A trail may start earlier. -/
theorem from_le (h : Trail lo way hi) (hlo : lo' ≤ lo) : Trail lo' way hi := by
  cases way with
  | nil => exact hlo.trans h
  | cons stop rest =>
      cases stop with
      | mark place => exact ⟨hlo.trans h.1, h.2⟩
      | gap =>
          obtain ⟨next, hnext, hrest⟩ := h
          exact ⟨next, hlo.trans_lt hnext, hrest⟩
      | call found =>
          obtain ⟨place, hplace, hle, hrest⟩ := h
          exact ⟨place, hplace, hlo.trans hle, hrest⟩

/-- A trail along two ways passes some place between them. -/
theorem append_iff :
    Trail lo (way ++ way') hi ↔ ∃ middle, Trail lo way middle ∧ Trail middle way' hi := by
  induction way generalizing lo with
  | nil =>
      constructor
      · exact fun h => ⟨lo, le_rfl, h⟩
      · rintro ⟨middle, hle, h⟩
        exact h.from_le hle
  | cons stop rest ih =>
      cases stop <;> simp only [List.cons_append, Trail, ih] <;> grind

/-- A trail leads on to every later place. -/
theorem to_le (h : Trail lo way hi) (hhi : hi ≤ hi') : Trail lo way hi' := by
  rw [← List.append_nil way]
  exact append_iff.mpr ⟨hi, h, hhi⟩

/-- Stops can be left out. -/
theorem sublist (h : Trail lo way hi) (hsub : way'.Sublist way) : Trail lo way' hi := by
  induction hsub generalizing lo with
  | slnil => exact h
  | cons stop hsub ih =>
      cases stop with
      | mark place => exact (ih h.2).from_le h.1
      | gap =>
          obtain ⟨next, hnext, hrest⟩ := h
          exact (ih hrest).from_le hnext.le
      | call found =>
          obtain ⟨place, -, hle, next, hnext, hrest⟩ := h
          exact (ih hrest).from_le (hle.trans hnext.le)
  | cons_cons stop hsub ih =>
      cases stop with
      | mark place => exact ⟨h.1, ih h.2⟩
      | gap =>
          obtain ⟨next, hnext, hrest⟩ := h
          exact ⟨next, hnext, ih hrest⟩
      | call found =>
          obtain ⟨place, hplace, hle, next, hnext, hrest⟩ := h
          exact ⟨place, hplace, hle, next, hnext, ih hrest⟩

/-- A trail does not lead back. -/
theorem le (h : Trail lo way hi) : lo ≤ hi := h.sublist (List.nil_sublist way)

/-- Over a gap the places differ. -/
theorem lt_of_gap (h : Trail lo (way ++ .gap :: way') hi) : lo < hi := by
  obtain ⟨middle, hfront, next, hnext, hback⟩ := append_iff.mp h
  exact hfront.le.trans_lt (hnext.trans_le hback.le)

/-- The calls on a trail stand one behind the other. -/
theorem pairwise_before {calls : List Call} (h : Trail lo (calls.map .call) hi) :
    calls.Pairwise Call.Before := by
  induction calls generalizing lo with
  | nil => exact List.Pairwise.nil
  | cons first rest ih =>
      obtain ⟨place, hplace, -, next, hnext, hrest⟩ := h
      refine List.Pairwise.cons ?_ (ih hrest)
      intro other hother
      have hone : Trail next [.call other] hi :=
        hrest.sublist (List.singleton_sublist.mpr (List.mem_map_of_mem hother))
      obtain ⟨place', hplace', hle, -⟩ := hone
      exact ⟨place, hplace, place', hplace', hnext.trans_le hle⟩

end Trail

/-! ## Past some stops -/

/-- Stops up to an offset that is remembered. -/
abbrev Reading.marked (r : Reading) (way : List Stop) (start : Nat) : List Stop :=
  way ++ [.mark (r.locate start)]

/-- A state that a trail from a place leads to. -/
structure Reading.Past (r : Reading) (lo : Location) (way : List Stop) (s : State) : Prop where
  /-- The state belongs to the text. -/
  placed : s.Placed r.text
  /-- The stops lead to it. -/
  trail : Trail lo way (r.locate s.start)

namespace Reading.Past

variable {r : Reading} {lo : Location} {way way' : List Stop} {s s' : State}

/-- Stops can be left out. -/
theorem keep (h : r.Past lo way s) (hsub : way'.Sublist way) : r.Past lo way' s :=
  ⟨h.placed, h.trail.sublist hsub⟩

/-- A later state is past the same stops. -/
theorem later (h : r.Past lo way s) (hplaced : s'.Placed r.text) (hle : s.start ≤ s'.start) :
    r.Past lo way s' :=
  ⟨hplaced, h.trail.to_le (Text.locate_mono hle)⟩

/-- Behind an opening parenthesis there is a gap. -/
theorem next_of_paren (h : r.Past lo way s) (hparen : s.token = .punct .parenL) :
    r.Past lo (way ++ [.gap]) s.next := by
  obtain ⟨hhead, hstop⟩ := h.placed.paren hparen
  have hhere : r.text[s.start]? = some '(' := by
    rw [← hhead, h.placed.here, List.head?_drop]
  have hstart : s.start < s.next.start :=
    lt_of_lt_of_le (by omega) (placed_scan false h.placed.rest).2
  refine ⟨h.placed.next, Trail.append_iff.mpr ⟨_, h.trail, r.locate s.next.start, ?_, le_rfl⟩⟩
  exact Text.locate_lt hhere le_rfl hstart

/-- The place of the state can be marked. -/
theorem mark (h : r.Past lo way s) : r.Past lo (r.marked way s.start) s :=
  ⟨h.placed, Trail.append_iff.mpr ⟨_, h.trail, le_rfl, le_rfl⟩⟩

/-- What is found from a state on comes after what was found before. -/
theorem append (h : r.Past lo way s) (hnew : r.Past (r.locate s.start) way' s') :
    r.Past lo (way ++ way') s' :=
  ⟨hnew.placed, Trail.append_iff.mpr ⟨_, h.trail, hnew.trail⟩⟩

/-- **A call takes the place of its parts**: it starts at the mark, and its
parentheses are a gap. -/
theorem call {start : Nat} {callee : Expr} {arguments : List Element} (optional : Bool)
    (h : r.Past lo (r.marked way start ++ r.stops callee ++ [.gap] ++ r.stops arguments) s) :
    r.Past lo (r.marked way start ++ r.stops (Expr.call start callee arguments optional)) s := by
  rcases stops_call (r := r) start callee arguments optional with ⟨found, hfound, hstops⟩ | hstops
  · simp only [List.append_assoc] at h
    obtain ⟨middle, hway, hmark⟩ := Trail.append_iff.mp h.trail
    have hlt : r.locate start < r.locate s.start := Trail.lt_of_gap hmark.2
    rw [hstops, List.append_assoc]
    refine ⟨h.placed,
      Trail.append_iff.mpr ⟨middle, hway, hmark.1, r.locate start, hfound, le_rfl, ?_⟩⟩
    exact ⟨r.locate s.start, hlt, le_rfl⟩
  · rw [hstops]
    refine h.keep ?_
    simp

end Reading.Past

end StringHarvest.Script
