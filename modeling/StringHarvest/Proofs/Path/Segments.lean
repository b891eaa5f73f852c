import Mathlib.Data.List.Infix
import Mathlib.Logic.Relation
import StringHarvest.Path.Basic

/-!
# Segments of paths

A path and the list of its segments are two forms of one thing: the segments hold no slash, and the
text is the segments with slashes between them (`text_eq_intercalate`, `segments_intercalate`).

The parent of a path is told by its segments (`parent?_eq`): it is written with the first one
and with those behind it that are kept. `continues_parent?` says how the two lists are related:
those of the parent are a proper beginning of those of the path, except that the root is written
with an empty segment behind its slash. `IsAbove` is the relation of all paths that are reached
from a path by taking parents.
-/

namespace StringHarvest

/-- Cutting at a mark is the cut of the standard library. -/
theorem Text.splitAt_eq_splitOn (mark : Char) (cs : List Char) :
    Text.splitAt mark cs = cs.splitOn mark := by
  induction cs with
  | nil => rfl
  | cons c cs ih =>
      rw [Text.splitAt, List.splitOn_cons_eq_if_modifyHead, ih]
      split
      · rfl
      · rcases h : cs.splitOn mark with _ | ⟨piece, pieces⟩
        · exact absurd h (List.splitOn_ne_nil mark cs)
        · rfl

namespace Path

variable {p q : Path}

/-- The segments of a path stand between its slashes. -/
theorem segments_eq_splitOn (p : Path) :
    p.segments = (p.text.toList.splitOn '/').map String.ofList := by
  unfold segments
  rw [Text.splitAt_eq_splitOn]

/-- There is always a segment. -/
theorem segments_ne_nil (p : Path) : p.segments ≠ [] := by
  rw [segments_eq_splitOn]
  simp

/-- The pieces between the marks hold no mark. -/
theorem notMem_of_mem_splitOn {mark : Char} {cs piece : List Char} (h : piece ∈ cs.splitOn mark) :
    mark ∉ piece := by
  induction cs generalizing piece with
  | nil =>
      rw [List.splitOn_nil, List.mem_singleton] at h
      simp [h]
  | cons c cs ih =>
      rw [List.splitOn_cons_eq_if_modifyHead] at h
      split at h
      · rcases List.mem_cons.mp h with rfl | h
        · simp
        · exact ih h
      · rename_i hc
        rcases hcs : cs.splitOn mark with _ | ⟨first, rest⟩
        · exact absurd hcs (List.splitOn_ne_nil mark cs)
        · rw [hcs, List.modifyHead_cons] at h
          rcases List.mem_cons.mp h with rfl | h
          · have hfirst := ih (hcs ▸ List.mem_cons_self)
            simp only [beq_iff_eq] at hc
            simp [hfirst, Ne.symm hc]
          · exact ih (hcs ▸ List.mem_cons_of_mem _ h)

/-- Segments hold no slash. -/
theorem slash_notMem_of_mem_segments {s : String} (h : s ∈ p.segments) : '/' ∉ s.toList := by
  rw [segments_eq_splitOn] at h
  obtain ⟨piece, hpiece, rfl⟩ := List.mem_map.mp h
  rw [String.toList_ofList]
  exact notMem_of_mem_splitOn hpiece

/-- The text of a path is its segments with slashes between them. -/
theorem text_eq_intercalate (p : Path) : p.text = "/".intercalate p.segments := by
  apply String.toList_inj.mp
  rw [String.toList_intercalate, segments_eq_splitOn, List.map_map]
  have hmap : String.toList ∘ String.ofList = id := funext fun cs => String.toList_ofList
  rw [hmap, List.map_id]
  exact (List.intercalate_splitOn '/').symm

/-- Segments that are put together are the segments of the path. -/
theorem segments_intercalate {l : List String} (hne : l ≠ []) (h : ∀ s ∈ l, '/' ∉ s.toList) :
    (⟨"/".intercalate l⟩ : Path).segments = l := by
  rw [segments_eq_splitOn, String.toList_intercalate]
  have hpieces : ∀ piece ∈ l.map String.toList, '/' ∉ piece := by simpa using h
  have hsplit := List.splitOn_intercalate '/' hpieces (by simpa using hne)
  rw [show "/".toList = ['/'] from rfl, hsplit, List.map_map]
  have hmap : String.ofList ∘ String.toList = id := funext fun s => String.ofList_toList
  rw [hmap, List.map_id]

/-! ### The start of a path -/

/-- A path starts at the root exactly if nothing stands in front of its first slash. -/
theorem isAbsolute_iff (p : Path) :
    p.isAbsolute = true ↔ ∃ first rest, p.segments = "" :: first :: rest := by
  unfold isAbsolute
  rw [String.startsWith_string_iff, segments_eq_splitOn]
  rcases hcs : p.text.toList with _ | ⟨c, cs⟩
  · simp
  · rcases hsplit : cs.splitOn '/' with _ | ⟨piece, pieces⟩
    · exact absurd hsplit (List.splitOn_ne_nil '/' cs)
    · rw [List.splitOn_cons_eq_if_modifyHead, hsplit]
      by_cases hc : c = '/'
      · simp [hc]
      · simp [hc, Ne.symm hc]

/-! ### Parents -/

/-- What is left without the idle segments at the end is a beginning. -/
theorem dropIdle_isPrefix (l : List String) : dropIdle l <+: l := by
  induction l with
  | nil => exact List.prefix_refl _
  | cons s l ih =>
      unfold dropIdle
      rcases hl : dropIdle l with _ | ⟨kept, more⟩
      · dsimp only
        split
        · exact List.nil_prefix
        · exact ⟨l, rfl⟩
      · rw [hl] at ih
        exact List.cons_prefix_cons.mpr ⟨rfl, ih⟩

/-- What is not idle stays. -/
theorem dropIdle_cons_of_ne {s : String} (hempty : s ≠ "") (hdot : s ≠ ".") (l : List String) :
    dropIdle (s :: l) = s :: dropIdle l := by
  have hcomponent : (component? s).isNone = false := by
    unfold component?
    rw [if_neg (by simp [hempty, hdot])]
    split <;> rfl
  rw [dropIdle, hcomponent]
  cases dropIdle l <;> rfl

/-- Of the segments behind the first one, those that the parent of a path keeps. -/
def keptByParent (rest : List String) : List String := dropIdle (dropIdle rest).dropLast

/-- What a parent keeps of segments is a proper beginning of them. -/
theorem exists_dropped {l : List String} (h : dropIdle l ≠ []) :
    ∃ dropped, dropped ≠ [] ∧ l = keptByParent l ++ dropped := by
  have hbody := dropIdle_isPrefix (dropIdle l).dropLast
  obtain ⟨dropped, hdropped⟩ := (hbody.trans (List.dropLast_prefix _)).trans (dropIdle_isPrefix l)
  refine ⟨dropped, ?_, hdropped.symm⟩
  rintro rfl
  -- nothing dropped would make the list shorter than itself
  have hlength := congrArg List.length hdropped
  have hle := hbody.length_le
  have hle' := (dropIdle_isPrefix l).length_le
  have hpos := List.length_pos_iff.mpr h
  rw [List.length_append, List.length_nil] at hlength
  rw [List.length_dropLast] at hle
  omega

/-- The path that is written with a first segment and more behind it. An empty segment alone is the
root, which is written with a slash. -/
def written (first : String) (more : List String) : Path :=
  if first = "" ∧ more = [] then ⟨"/"⟩ else ⟨"/".intercalate (first :: more)⟩

/-- **How the parent of a path is written**: with the first segment and what is kept behind it. If
nothing but the first segment counts, then the root has no parent, and what is above another path is
written with nothing. -/
theorem parent?_eq {first : String} {rest : List String} (hp : p.segments = first :: rest) :
    p.parent? =
      if dropIdle rest = [] then if first = "" then none else some ⟨""⟩
      else some (written first (keptByParent rest)) := by
  unfold parent? keptByParent written
  rw [hp]
  dsimp only
  -- a path starts with a slash, with a dot or with a name
  split
  · next heq =>
      obtain ⟨rfl, rfl⟩ := List.cons.inj heq
      rcases dropIdle rest with _ | ⟨second, more⟩
      · rfl
      · rcases dropIdle (second :: more).dropLast with _ | ⟨kept, others⟩
        · rfl
        · simp [String.intercalate_cons_of_ne_nil (List.cons_ne_nil kept others)]
  · next heq =>
      obtain ⟨rfl, rfl⟩ := List.cons.inj heq
      rcases dropIdle rest with _ | ⟨second, more⟩
      · rfl
      · rcases dropIdle (second :: more).dropLast with _ | ⟨kept, others⟩
        · rfl
        · simp [String.intercalate_cons_of_ne_nil (List.cons_ne_nil kept others)]
  · next hempty hdot =>
      have hfirst : first ≠ "" := fun heq => hempty rest (by rw [heq])
      have hsecond : first ≠ "." := fun heq => hdot rest (by rw [heq])
      rw [dropIdle_cons_of_ne hfirst hsecond]
      rcases dropIdle rest with _ | ⟨second, more⟩
      · simp [hfirst, dropIdle]
      · rw [List.dropLast_cons_of_ne_nil (List.cons_ne_nil second more),
          dropIdle_cons_of_ne hfirst hsecond]
        simp [hfirst]

/-- One path goes on where another one ends: both start at the same place, and the segments of the
one are followed by more. The root ends with an empty segment, which is not counted. -/
def Continues (p q : Path) : Prop :=
  q.isAbsolute = p.isAbsolute ∧ ∃ dropped, dropped ≠ [] ∧
    (p.segments = q.segments ++ dropped ∨ q.segments = ["", ""] ∧ p.segments = "" :: dropped)

/-- The segments of a path that is written with some of the segments of another one. -/
theorem segments_written {first : String} {kept dropped : List String}
    (hp : p.segments = first :: (kept ++ dropped)) (hne : dropped ≠ []) :
    (written first kept).isAbsolute = p.isAbsolute ∧
      ((written first kept).segments = first :: kept ∨
        first = "" ∧ kept = [] ∧ (written first kept).segments = ["", ""]) := by
  have hslash : ∀ s ∈ first :: kept, '/' ∉ s.toList := by
    intro s hs
    apply slash_notMem_of_mem_segments (p := p)
    rw [hp, ← List.cons_append]
    exact List.mem_append_left _ hs
  have hsegments := segments_intercalate (List.cons_ne_nil first kept) hslash
  obtain ⟨second, dropped, rfl⟩ := List.exists_cons_of_ne_nil hne
  unfold written
  rw [Bool.eq_iff_iff, isAbsolute_iff, isAbsolute_iff, hp]
  split
  · next hroot =>
      obtain ⟨rfl, rfl⟩ := hroot
      exact ⟨iff_of_true ⟨"", [], rfl⟩ ⟨second, dropped, rfl⟩, .inr ⟨rfl, rfl, rfl⟩⟩
  · next hroot =>
      refine ⟨?_, .inl hsegments⟩
      rw [hsegments]
      rcases kept with _ | ⟨third, kept⟩
      · have hfirst : first ≠ "" := fun heq => hroot ⟨heq, rfl⟩
        simp [hfirst]
      · simp

/-- **A path goes on where its parent ends**, if the parent has a text. -/
theorem continues_parent? (h : p.parent? = some q) (hq : q.text ≠ "") : p.Continues q := by
  obtain ⟨first, rest, hp⟩ := List.exists_cons_of_ne_nil p.segments_ne_nil
  rw [parent?_eq hp] at h
  split at h
  · split at h
    · cases h
    · obtain rfl := Option.some.inj h
      exact absurd rfl hq
  · next hidle =>
      obtain rfl := Option.some.inj h
      obtain ⟨dropped, hne, hrest⟩ := exists_dropped hidle
      rw [hrest] at hp
      obtain ⟨habsolute, hsegments | ⟨rfl, hkept, hsegments⟩⟩ := segments_written hp hne
      · exact ⟨habsolute, dropped, hne, .inl (by rw [hp, hsegments, List.cons_append])⟩
      · rw [hkept, List.nil_append] at hp
        exact ⟨habsolute, dropped, hne, .inr ⟨hsegments, hp⟩⟩

/-- A path is above another one: it is the parent, or the parent of a path above. -/
def IsAbove : Path → Path → Prop := Relation.TransGen fun q p => p.parent? = some q

end Path

end StringHarvest
