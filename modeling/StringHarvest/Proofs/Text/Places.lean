import Mathlib.Data.Prod.Lex
import StringHarvest.Text.Location

/-!
# The order of places

Places in a text are ordered by line and then by column. Going forward in a text never leads to an
earlier place (`locate_mono`), but it need not lead to a later one: control characters and combining
marks take no column, and the two characters of a line end are one. A parenthesis does take a
column, so what stands behind it is at a later place (`locate_lt`).
-/

namespace StringHarvest

/-- Places from first to last: by line, then by column. -/
instance : LinearOrder Location :=
  LinearOrder.lift' (fun l => toLex (l.line, l.column)) fun a b h => by
    cases a
    cases b
    simpa using h

namespace Location

/-- Locations are compared by line, then by column. -/
theorem le_iff {a b : Location} :
    a ≤ b ↔ a.line < b.line ∨ a.line = b.line ∧ a.column ≤ b.column :=
  Prod.Lex.le_iff

/-- So they are strictly. -/
theorem lt_iff {a b : Location} :
    a < b ↔ a.line < b.line ∨ a.line = b.line ∧ a.column < b.column :=
  Prod.Lex.lt_iff

end Location

namespace Text

/-- The place behind a text that starts at the given place is no earlier. -/
theorem le_locateFrom (line column offset : Nat) (cs : List Char) :
    (⟨line, column⟩ : Location) ≤ locateFrom line column offset cs := by
  fun_induction locateFrom line column offset cs with
  | case1 => exact le_rfl
  | case2 => exact le_rfl
  | case3 line column offset cs ih => exact (Location.le_iff.mpr (by simp)).trans ih
  | case4 line column offset cs hpair ih => exact ih
  | case5 line column offset cs hpair ih => exact (Location.le_iff.mpr (by simp)).trans ih
  | case6 line column offset c cs hn hr ih => exact (Location.le_iff.mpr (by simp)).trans ih

/-- A way through a text may be cut in two. -/
theorem locateFrom_add (line column m n : Nat) (cs : List Char) :
    locateFrom line column (m + n) cs =
      locateFrom (locateFrom line column m cs).line (locateFrom line column m cs).column n
        (cs.drop m) := by
  fun_induction locateFrom line column m cs with
  | case1 => rw [Nat.zero_add, List.drop_zero]
  | case2 line column m => cases m <;> cases n <;> simp [locateFrom]
  | case3 line column m cs ih => rw [Nat.succ_add, locateFrom, ih, List.drop_succ_cons]
  | case4 line column m cs hpair ih =>
      rw [Nat.succ_add, locateFrom, if_pos hpair, ih, List.drop_succ_cons]
  | case5 line column m cs hpair ih =>
      rw [Nat.succ_add, locateFrom, if_neg hpair, ih, List.drop_succ_cons]
  | case6 line column m c cs hn hr ih =>
      rw [Nat.succ_add, locateFrom, ih, List.drop_succ_cons]
      · exact hn
      · exact hr

variable {text : List Char} {a b : Nat}

/-- Going forward never leads to an earlier place. -/
theorem locate_mono (h : a ≤ b) : locate text a ≤ locate text b := by
  obtain ⟨n, rfl⟩ := Nat.exists_eq_add_of_le h
  rw [locate, locate, locateFrom_add]
  exact le_locateFrom _ _ _ _

/-- What stands behind a parenthesis is at a later place than what stands before it. -/
theorem locate_lt {p : Nat} (hp : text[p]? = some '(') (ha : a ≤ p) (hb : p < b) :
    locate text a < locate text b := by
  have hcons : text.drop p = '(' :: text.drop (p + 1) := by
    obtain ⟨hlt, hget⟩ := List.getElem?_eq_some_iff.mp hp
    rw [List.drop_eq_getElem_cons hlt, hget]
  have hstep : locate text p < locate text (p + 1) := by
    have hcolumns : columns '(' = 1 := by decide
    rw [locate, locate, locateFrom_add, hcons, locateFrom, hcolumns, locateFrom, Location.lt_iff]
    · exact .inr ⟨rfl, Nat.lt_succ_self _⟩
    · decide
    · decide
  calc
    locate text a ≤ locate text p := locate_mono ha
    _ < locate text (p + 1) := hstep
    _ ≤ locate text b := locate_mono hb

end Text

end StringHarvest
