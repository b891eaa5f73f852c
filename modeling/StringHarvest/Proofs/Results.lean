import Mathlib.Logic.Basic

/-!
# Computations that can fail

How success and failure go through sequences of computations: one behind another (`bind_eq_ok_iff`),
one with its errors renamed (`mapError_eq_ok_iff`), and one for each element of a list. The last
succeeds exactly if each of them does (`mapM_eq_ok_iff`), and its error is that of the first one
that fails (`mapM_eq_error_iff`).
-/

namespace StringHarvest

variable {ε ε' α β : Type}

/-- A computation that goes on behind another one succeeds exactly if both do. -/
theorem bind_eq_ok_iff {x : Except ε α} {f : α → Except ε β} {b : β} :
    x >>= f = .ok b ↔ ∃ a, x = .ok a ∧ f a = .ok b := by
  cases x with
  | error e => exact ⟨nofun, nofun⟩
  | ok a =>
      constructor
      · intro h
        exact ⟨a, rfl, h⟩
      · rintro ⟨_, ha, h⟩
        rw [Except.ok.inj ha]
        exact h

/-- Renamed errors do not matter for success. -/
theorem mapError_eq_ok_iff {x : Except ε α} {rename : ε → ε'} {a : α} :
    x.mapError rename = .ok a ↔ x = .ok a := by
  cases x with
  | error e => exact ⟨nofun, nofun⟩
  | ok b =>
      constructor
      · intro h
        exact congrArg Except.ok (Except.ok.inj h)
      · intro h
        exact congrArg Except.ok (Except.ok.inj h)

section mapM

variable {f : α → Except ε β} {l : List α}

/-- Functions that agree on a list give the same result for it. -/
theorem mapM_congr {g : α → Except ε β} (h : ∀ x ∈ l, f x = g x) : l.mapM f = l.mapM g := by
  induction l with
  | nil => rfl
  | cons x l ih =>
      rw [List.mapM_cons, List.mapM_cons, h x List.mem_cons_self,
        ih fun y hy => h y (List.mem_cons_of_mem _ hy)]

/-- Results that are all there are collected in order. -/
theorem mapM_eq_ok {g : α → β} (h : ∀ x ∈ l, f x = .ok (g x)) : l.mapM f = .ok (l.map g) := by
  induction l with
  | nil => rfl
  | cons x l ih =>
      rw [List.mapM_cons, h x List.mem_cons_self, ih fun y hy => h y (List.mem_cons_of_mem _ hy)]
      rfl

/-- The results that are collected, told without the collecting. -/
theorem mapM_eq_ok_iff {results : List β} : l.mapM f = .ok results ↔ l.map f = results.map .ok := by
  induction l generalizing results with
  | nil =>
      rw [List.mapM_nil, List.map_nil, eq_comm (a := []), List.map_eq_nil_iff]
      exact ⟨fun h => (Except.ok.inj h).symm, fun h => congrArg Except.ok h.symm⟩
  | cons x l ih =>
      rw [List.mapM_cons, List.map_cons, bind_eq_ok_iff]
      constructor
      · rintro ⟨y, hy, h⟩
        obtain ⟨ys, hys, h⟩ := bind_eq_ok_iff.mp h
        obtain rfl : y :: ys = results := Except.ok.inj h
        rw [hy, ih.mp hys, List.map_cons]
      · intro h
        obtain ⟨y, ys, rfl, hy, hys⟩ := List.map_eq_cons_iff.mp h.symm
        exact ⟨y, hy.symm, bind_eq_ok_iff.mpr ⟨ys, ih.mpr hys.symm, rfl⟩⟩

/-- Results that are collected are those of the elements. -/
theorem mem_of_mapM {results : List β} (h : l.mapM f = .ok results) :
    (∀ x ∈ l, ∃ y ∈ results, f x = .ok y) ∧ ∀ y ∈ results, ∃ x ∈ l, f x = .ok y := by
  induction l generalizing results with
  | nil =>
      obtain rfl : [] = results := Except.ok.inj h
      exact ⟨nofun, nofun⟩
  | cons x l ih =>
      rw [List.mapM_cons] at h
      obtain ⟨y, hy, h⟩ := bind_eq_ok_iff.mp h
      obtain ⟨ys, hys, h⟩ := bind_eq_ok_iff.mp h
      obtain rfl : y :: ys = results := Except.ok.inj h
      obtain ⟨hresults, helements⟩ := ih hys
      constructor
      · intro z hz
        rcases List.mem_cons.mp hz with rfl | hz
        · exact ⟨y, List.mem_cons_self, hy⟩
        · obtain ⟨w, hw, hzw⟩ := hresults z hz
          exact ⟨w, List.mem_cons_of_mem _ hw, hzw⟩
      · intro w hw
        rcases List.mem_cons.mp hw with rfl | hw
        · exact ⟨x, List.mem_cons_self, hy⟩
        · obtain ⟨z, hz, hzw⟩ := helements w hw
          exact ⟨z, List.mem_cons_of_mem _ hz, hzw⟩

/-- Results that are collected are all there. -/
theorem forall_ok_of_mapM {results : List β} (h : l.mapM f = .ok results) :
    ∀ x ∈ l, ∃ y, f x = .ok y := by
  intro x hx
  obtain ⟨y, -, hy⟩ := (mem_of_mapM h).1 x hx
  exact ⟨y, hy⟩

/-- Results are not collected exactly if one of them is the error and those in
front of it are there. -/
theorem mapM_eq_error_iff {e : ε} :
    l.mapM f = .error e ↔
      ∃ before x after, l = before ++ x :: after ∧ (∀ y ∈ before, ∃ z, f y = .ok z) ∧
        f x = .error e := by
  induction l with
  | nil =>
      refine ⟨nofun, ?_⟩
      rintro ⟨before, x, after, h, -⟩
      exact absurd h.symm (List.append_ne_nil_of_right_ne_nil before (List.cons_ne_nil x after))
  | cons x l ih =>
      rw [List.mapM_cons]
      constructor
      · intro h
        rcases hx : f x with e' | y
        · rw [hx] at h
          obtain rfl := Except.error.inj h
          exact ⟨[], x, l, rfl, nofun, hx⟩
        · rcases hl : l.mapM f with e' | ys
          · rw [hx, hl] at h
            obtain rfl := Except.error.inj h
            obtain ⟨before, z, after, rfl, hbefore, hz⟩ := ih.mp hl
            exact ⟨x :: before, z, after, rfl, List.forall_mem_cons.mpr ⟨⟨y, hx⟩, hbefore⟩, hz⟩
          · rw [hx, hl] at h
            cases h
      · rintro ⟨before, z, after, h, hbefore, hz⟩
        rcases before with _ | ⟨x', before⟩
        · obtain ⟨rfl, rfl⟩ := List.cons.inj h
          rw [hz]
          rfl
        · obtain ⟨rfl, rfl⟩ := List.cons.inj h
          obtain ⟨⟨y, hy⟩, hbefore⟩ := List.forall_mem_cons.mp hbefore
          rw [hy, ih.mpr ⟨before, z, after, rfl, hbefore, hz⟩]
          rfl

/-- Where results are not collected, one of them is the error. -/
theorem exists_error_of_mapM {e : ε} (h : l.mapM f = .error e) : ∃ x ∈ l, f x = .error e := by
  obtain ⟨before, x, after, rfl, -, hx⟩ := mapM_eq_error_iff.mp h
  exact ⟨x, List.mem_append_right before List.mem_cons_self, hx⟩

end mapM

end StringHarvest
