import StringHarvest.Proofs.Path.Components

/-!
# Parents and components

The parent of a path is written with some of its segments, and means the path without its last
component (`components_parent?`). There is no parent exactly if there is nothing to drop: the path
is empty or the root (`parent?_eq_none_iff`).
-/

namespace StringHarvest.Path

variable {p q : Path}

/-! ### Segments that stand for no component -/

/-- Idle segments have no components. -/
theorem filterMap_dropIdle (l : List String) :
    (dropIdle l).filterMap component? = l.filterMap component? := by
  induction l with
  | nil => rfl
  | cons s l ih =>
      unfold dropIdle
      rw [List.filterMap_cons, ← ih]
      rcases hl : dropIdle l with _ | ⟨kept, more⟩
      · rcases hs : component? s with _ | c <;> simp [hs]
      · rw [List.filterMap_cons]

/-- What is left without the idle segments at the end does not end with an idle one. -/
theorem component?_of_getLast?_dropIdle {l : List String} {s : String}
    (h : (dropIdle l).getLast? = some s) : ∃ c, component? s = some c := by
  induction l with
  | nil => cases h
  | cons t l ih =>
      unfold dropIdle at h
      rcases hl : dropIdle l with _ | ⟨kept, more⟩ <;> rw [hl] at h ih
      · dsimp only at h
        split at h
        · cases h
        · rename_i ht
          obtain rfl : t = s := by simpa using h
          exact Option.ne_none_iff_exists'.mp (by simpa using ht)
      · rw [List.getLast?_cons_cons] at h
        exact ih h

/-- Only idle segments are dropped. -/
theorem dropIdle_eq_nil_iff {l : List String} : dropIdle l = [] ↔ l.filterMap component? = [] := by
  constructor
  · intro h
    rw [← filterMap_dropIdle, h, List.filterMap_nil]
  · intro h
    by_contra hne
    obtain ⟨c, hc⟩ := component?_of_getLast?_dropIdle (List.getLast?_eq_some_getLast hne)
    rw [← filterMap_dropIdle, List.filterMap_eq_nil_iff] at h
    rw [h _ (List.getLast_mem hne)] at hc
    cases hc

/-- The last component is dropped with the last segment that is not idle. -/
theorem filterMap_dropLast {l : List String} (h : dropIdle l ≠ []) :
    (keptByParent l).filterMap component? = (l.filterMap component?).dropLast := by
  unfold keptByParent
  obtain ⟨c, hc⟩ := component?_of_getLast?_dropIdle (List.getLast?_eq_some_getLast h)
  rw [filterMap_dropIdle, ← filterMap_dropIdle l]
  conv => rhs; rw [← List.dropLast_concat_getLast h, List.filterMap_append]
  simp [hc]

/-! ### Parents -/

/-- A first segment that is not empty stands for one component, which is not the root. -/
theorem leading_of_ne {first : String} (h : first ≠ "") (isAbsolute : Bool) :
    ∃ c, leading isAbsolute first = [c] ∧ c ≠ .root := by
  unfold leading
  rw [if_neg h]
  split
  · exact ⟨.here, rfl, nofun⟩
  · next hdot =>
      unfold component?
      rw [if_neg (by simp [h, hdot])]
      split
      · exact ⟨.up, rfl, nofun⟩
      · exact ⟨.name first, rfl, nofun⟩

/-- The components of a path that is written with some of the segments of another one. -/
theorem components_written {first : String} {kept dropped : List String}
    (hp : p.segments = first :: (kept ++ dropped)) (hne : dropped ≠ []) :
    (written first kept).components = leading p.isAbsolute first ++ kept.filterMap component? := by
  obtain ⟨habsolute, hsegments | ⟨rfl, rfl, hsegments⟩⟩ := segments_written hp hne
  · rw [components_eq hsegments, habsolute]
  · rw [components_eq hsegments, habsolute]
    rfl

/-- **The parent of a path** has the components of the path but for the last. -/
theorem components_parent? (h : p.parent? = some q) : q.components = p.components.dropLast := by
  obtain ⟨first, rest, hp⟩ := List.exists_cons_of_ne_nil p.segments_ne_nil
  rw [parent?_eq hp] at h
  rw [components_eq hp]
  split at h
  · next hidle =>
      split at h
      · cases h
      · next hfirst =>
          obtain rfl := Option.some.inj h
          obtain ⟨c, hc, -⟩ := leading_of_ne hfirst p.isAbsolute
          rw [dropIdle_eq_nil_iff.mp hidle, hc]
          rfl
  · next hidle =>
      obtain rfl := Option.some.inj h
      obtain ⟨dropped, hne, hrest⟩ := exists_dropped hidle
      have hsome : rest.filterMap component? ≠ [] := mt dropIdle_eq_nil_iff.mpr hidle
      rw [components_written (hrest ▸ hp) hne, filterMap_dropLast hidle,
        List.dropLast_append_of_ne_nil hsome]

/-- **A path has no parent** exactly if it has nothing to drop. -/
theorem parent?_eq_none_iff : p.parent? = none ↔ p.components = [] ∨ p.components = [.root] := by
  obtain ⟨first, rest, hp⟩ := List.exists_cons_of_ne_nil p.segments_ne_nil
  have hparent : p.parent? = none ↔ rest.filterMap component? = [] ∧ first = "" := by
    rw [parent?_eq hp, ← dropIdle_eq_nil_iff]
    split_ifs <;> simp [*]
  rw [hparent, components_eq hp]
  by_cases hfirst : first = ""
  · subst hfirst
    rcases hmore : rest.filterMap component? with _ | ⟨c, more⟩
    · cases p.isAbsolute <;> simp [leading]
    · have hmem : c ∈ rest.filterMap component? := hmore ▸ List.mem_cons_self
      rcases eq_up_or_name_of_mem hmem with rfl | ⟨text, rfl⟩ <;>
        cases p.isAbsolute <;> simp [leading]
  · obtain ⟨c, hc, hne⟩ := leading_of_ne hfirst p.isAbsolute
    simp [hfirst, hc, hne]

end StringHarvest.Path
