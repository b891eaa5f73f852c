import Mathlib.Data.List.DropRight
import StringHarvest.Proofs.Path.Segments

/-!
# Pieces of a text between marks

`Text.splitAt` cuts a text at every occurrence of a mark. The number of pieces is told by the
number of marks (`length_splitAt`), and the pieces of a text that is given in two parts are
those of the parts, where the last piece of the first part and the first piece of the second
part are one (`splitAt_append`). Texts that are put together with marks between them are found
again (`splitAt_intercalate`).
-/

namespace StringHarvest.Text

variable (mark : Char)

/-- A mark in front ends an empty piece. -/
theorem splitAt_cons_self (cs : List Char) :
    splitAt mark (mark :: cs) = [] :: splitAt mark cs := by
  rw [splitAt, if_pos (beq_self_eq_true mark)]

/-- Any other character in front belongs to the first piece. -/
theorem splitAt_cons_of_ne {mark c : Char} (h : c ≠ mark) (cs : List Char) :
    splitAt mark (c :: cs) = (splitAt mark cs).modifyHead (c :: ·) := by
  rw [splitAt_eq_splitOn, splitAt_eq_splitOn, List.splitOn_cons_eq_if_modifyHead,
    if_neg (by simpa using h)]

/-- There is one piece more than there are marks. -/
theorem length_splitAt (cs : List Char) : (splitAt mark cs).length = cs.count mark + 1 := by
  induction cs with
  | nil => rfl
  | cons c cs ih =>
      by_cases hc : c = mark
      · rw [hc, splitAt_cons_self, List.length_cons, ih, List.count_cons_self]
      · rw [splitAt_cons_of_ne hc, List.length_modifyHead, ih, List.count_cons_of_ne hc]

/-- The first piece ends at the first mark. -/
theorem splitAt_eq_cons (cs : List Char) :
    splitAt mark cs = cs.takeWhile (· != mark) :: (splitAt mark cs).tail := by
  induction cs with
  | nil => rfl
  | cons c cs ih =>
      by_cases hc : c = mark
      · rw [hc, splitAt_cons_self, List.takeWhile_cons_of_neg (by simp), List.tail_cons]
      · rw [splitAt_cons_of_ne hc, List.takeWhile_cons_of_pos (by simpa using hc), ih,
          List.modifyHead_cons, List.tail_cons]

/-- Texts without a mark are found again between the marks. -/
theorem splitAt_intercalate {mark : Char} {separator : String}
    (hseparator : separator.toList = [mark]) {texts : List String} (hne : texts ≠ [])
    (h : ∀ t ∈ texts, mark ∉ t.toList) :
    splitAt mark (separator.intercalate texts).toList = texts.map String.toList := by
  rw [splitAt_eq_splitOn, String.toList_intercalate, hseparator]
  exact List.splitOn_intercalate mark (by simpa using h) (by simpa using hne)

/-- Characters other than the mark stand in pieces. -/
theorem exists_mem_splitAt {mark c : Char} (hc : c ≠ mark) {cs : List Char} (h : c ∈ cs) :
    ∃ piece ∈ splitAt mark cs, c ∈ piece := by
  induction cs with
  | nil => cases h
  | cons d cs ih =>
      by_cases hd : d = mark
      · rw [hd, splitAt_cons_self]
        obtain ⟨piece, hpiece, hmem⟩ :=
          ih ((List.mem_cons.mp h).resolve_left fun heq => hc (heq.trans hd))
        exact ⟨piece, List.mem_cons_of_mem _ hpiece, hmem⟩
      · rw [splitAt_cons_of_ne hd]
        rw [splitAt_eq_cons] at ih ⊢
        rw [List.modifyHead_cons]
        rcases List.mem_cons.mp h with rfl | h
        · exact ⟨_, List.mem_cons_self, List.mem_cons_self⟩
        · obtain ⟨piece, hpiece, hmem⟩ := ih h
          rcases List.mem_cons.mp hpiece with rfl | hpiece
          · exact ⟨_, List.mem_cons_self, List.mem_cons_of_mem _ hmem⟩
          · exact ⟨piece, List.mem_cons_of_mem _ hpiece, hmem⟩

/-- The pieces of the first part come first; what stands behind the last mark of it is continued by
the pieces of the second part. -/
theorem splitAt_append (xs ys : List Char) :
    splitAt mark (xs ++ ys) =
      (splitAt mark xs).dropLast ++
        (splitAt mark ys).modifyHead (xs.rtakeWhile (· != mark) ++ ·) := by
  induction xs using List.reverseRecOn generalizing ys with
  | nil => exact (congrFun List.modifyHead_id _).symm
  | append_singleton xs x ih =>
      rw [List.append_assoc, List.singleton_append, ih, ih [x]]
      by_cases hx : x = mark
      · subst hx
        have hid : (splitAt x ys).modifyHead ([] ++ ·) = splitAt x ys :=
          congrFun List.modifyHead_id _
        rw [List.rtakeWhile_concat_neg _ _ _ (by simp), hid, splitAt_cons_self, splitAt_cons_self,
          splitAt]
        simp
      · rw [List.rtakeWhile_concat_pos _ _ _ (by simpa using hx), splitAt_cons_of_ne hx,
          splitAt_cons_of_ne hx, splitAt, List.modifyHead_modifyHead]
        simp [Function.comp_def]

/-- A part without a mark is put in front of the first piece. -/
theorem splitAt_append_of_notMem {mark : Char} {xs : List Char} (h : mark ∉ xs) (ys : List Char) :
    splitAt mark (xs ++ ys) = (splitAt mark ys).modifyHead (xs ++ ·) := by
  have hall : xs.rtakeWhile (· != mark) = xs :=
    List.rtakeWhile_eq_self_iff.mpr fun x hx => bne_iff_ne.mpr fun heq => h (heq ▸ hx)
  have hlength : (splitAt mark xs).length = 1 := by
    rw [length_splitAt, List.count_eq_zero_of_not_mem h]
  obtain ⟨piece, hpiece⟩ := List.length_eq_one_iff.mp hlength
  rw [splitAt_append, hall, hpiece, List.dropLast_singleton, List.nil_append]

end StringHarvest.Text
