import StringHarvest.Proofs.Path.Segments
import StringHarvest.Proofs.Text.Pieces

/-!
# Segments of joined paths

A path that is put below another one continues its segments (`segments_join`). If the upper path
ends with a slash, the empty segment behind that slash gives way.

Slashes at the end of a path add empty segments (`exists_segments_bare`) and do not matter for its
parent (`parent?_bare`).
-/

namespace StringHarvest.Path

variable {base p : Path}

/-- The segments of a text stand between its slashes. -/
theorem segments_mk (text : String) :
    (⟨text⟩ : Path).segments = (text.toList.splitOn '/').map String.ofList :=
  segments_eq_splitOn ⟨text⟩

/-- An absolute path stays as it is when it is joined. -/
theorem join_of_isAbsolute (h : p.isAbsolute = true) (base : Path) : base.join p = p := by
  unfold join
  rw [h, Bool.true_or, if_pos rfl]

/-- So does any path that is joined to the empty one. -/
theorem join_of_empty (h : base.text = "") (p : Path) : base.join p = p := by
  unfold join
  rw [if_pos (by simp [h])]

/-- An absolute path has an empty segment in front of its slash. -/
theorem segments_of_isAbsolute (h : p.isAbsolute = true) :
    p.segments = "" :: (⟨(p.text.drop 1).toString⟩ : Path).segments := by
  obtain ⟨behind, hbehind⟩ := String.startsWith_string_iff.mp h
  have hdrop : (p.text.drop 1).toString.toList = behind :=
    String.toList_copy_drop.trans (congrArg (List.drop 1) hbehind.symm)
  unfold segments
  rw [hdrop, ← hbehind]
  exact congrArg (List.map String.ofList) (Text.splitAt_cons_self '/' behind)

/-- A text with a slash in it has the segments before the slash and those behind it. -/
theorem segments_slash (front back : String) :
    (⟨front ++ "/" ++ back⟩ : Path).segments =
      (⟨front⟩ : Path).segments ++ (⟨back⟩ : Path).segments := by
  rw [segments_mk, segments_mk, segments_mk, ← List.map_append, String.append_assoc,
    String.toList_append, String.toList_append]
  exact congrArg _ (List.splitOn_append_cons_self _ _)

/-- A slash at the end gives an empty segment. -/
theorem segments_slash_end (front : String) :
    (⟨front ++ "/"⟩ : Path).segments = (⟨front⟩ : Path).segments ++ [""] := by
  have hslash := segments_slash front ""
  rwa [String.append_empty] at hslash

/-- A text that ends with a slash has something before it. -/
theorem exists_of_endsWith {text : String} (h : text.endsWith "/" = true) :
    ∃ front, text = front ++ "/" := by
  have hslice : text.toSlice.endsWith "/" = true := h
  obtain ⟨front, hfront⟩ := String.Slice.endsWith_string_iff.mp hslice
  refine ⟨String.ofList front, String.toList_inj.mp ?_⟩
  rw [String.toList_append, String.toList_ofList, hfront, String.copy_toSlice]

/-- What of a path goes on when something is put below it: its segments, without an empty one at the
end. -/
def openSegments (base : Path) : List String :=
  if base.text.endsWith "/" then base.segments.dropLast else base.segments

/-- Nothing but an empty segment is left out. -/
theorem segments_eq_openSegments (base : Path) :
    base.openSegments ≠ [] ∧
      (base.segments = base.openSegments ∨ base.segments = base.openSegments ++ [""]) := by
  unfold openSegments
  split
  · rename_i hslash
    obtain ⟨front, hfront⟩ := exists_of_endsWith hslash
    obtain rfl : base = ⟨front ++ "/"⟩ := congrArg Path.mk hfront
    rw [segments_slash_end, List.dropLast_concat]
    exact ⟨segments_ne_nil _, .inr rfl⟩
  · exact ⟨base.segments_ne_nil, .inl rfl⟩

/-- **The segments of a joined path** are those of the two paths. -/
theorem segments_join (hp : p.isAbsolute = false) (hbase : base.text ≠ "") :
    (base.join p).segments = base.openSegments ++ p.segments := by
  unfold join openSegments
  rw [if_neg (by simp [hp, hbase])]
  split
  · rename_i hslash
    obtain ⟨front, hfront⟩ := exists_of_endsWith hslash
    obtain rfl : base = ⟨front ++ "/"⟩ := congrArg Path.mk hfront
    rw [segments_slash, segments_slash_end, List.dropLast_concat]
  · exact segments_slash base.text p.text

/-! ### Slashes at the end -/

/-- A path without the slashes at its end. -/
def bare (p : Path) : Path := ⟨String.ofList (p.text.toList.reverse.dropWhile (· == '/')).reverse⟩

/-- A slash at the end is dropped. -/
theorem bare_slash_end (front : String) :
    (⟨front ++ "/"⟩ : Path).bare = (⟨front⟩ : Path).bare := by
  unfold bare
  rw [String.toList_append, List.reverse_append]
  rfl

/-- A path is bare, or it is another one with a slash behind it. -/
theorem bare_induction {motive : Path → Prop} (bare : ∀ p, p.bare = p → motive p)
    (slash : ∀ front, motive ⟨front⟩ → motive ⟨front ++ "/"⟩) (p : Path) : motive p := by
  obtain ⟨text⟩ := p
  rw [← String.ofList_toList (s := text)]
  induction text.toList using List.reverseRecOn with
  | nil => exact bare _ rfl
  | append_singleton cs c ih =>
      by_cases hc : c = '/'
      · rw [hc, String.ofList_append]
        exact slash _ ih
      · refine bare _ (congrArg Path.mk ?_)
        simp [String.toList_ofList, hc]

/-- Only empty segments are left out of a bare path. -/
theorem exists_segments_bare (p : Path) :
    ∃ k, p.segments = p.bare.segments ++ List.replicate k "" := by
  induction p using bare_induction with
  | bare p h => exact ⟨0, by rw [h, List.replicate_zero, List.append_nil]⟩
  | slash front ih =>
      obtain ⟨k, hk⟩ := ih
      refine ⟨k + 1, ?_⟩
      rw [segments_slash_end, bare_slash_end, hk, List.append_assoc, List.replicate_succ']

/-- An empty segment at the end is idle. -/
theorem dropIdle_concat_empty (l : List String) : dropIdle (l ++ [""]) = dropIdle l := by
  induction l with
  | nil => rfl
  | cons s l ih => rw [List.cons_append, dropIdle, dropIdle, ih]

/-- A slash at the end of a path does not matter for its parent. -/
theorem parent?_slash_end (front : String) :
    (⟨front ++ "/"⟩ : Path).parent? = (⟨front⟩ : Path).parent? := by
  have hslash := segments_slash_end front
  obtain ⟨first, rest, hfront⟩ := List.exists_cons_of_ne_nil (segments_ne_nil ⟨front⟩)
  rw [hfront, List.cons_append] at hslash
  rw [parent?_eq hslash, parent?_eq hfront, keptByParent, keptByParent, dropIdle_concat_empty]

/-- Slashes at the end do not change the parent. -/
theorem parent?_bare (p : Path) : p.bare.parent? = p.parent? := by
  induction p using bare_induction with
  | bare p h => rw [h]
  | slash front ih => rw [bare_slash_end, parent?_slash_end, ih]

end StringHarvest.Path
