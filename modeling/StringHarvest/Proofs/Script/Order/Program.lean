import StringHarvest.Proofs.Script.Order.Modules

/-!
# The calls of a script are in the order of the text

The phrases of the grammar are tied together by depth. All of them keep to the order of the text
(`Grammar.ordered_ofDepth`), by induction on the depth.

**Main theorem** (`pairwise_sourceCalls`): whatever text is read, the message calls of its tree,
each with the place where its callee starts, stand one behind the other.
-/

namespace StringHarvest.Script

open StringHarvest.Script.Parser Std.Do

/-- One step deeper everything keeps to the order. -/
theorem Grammar.Ordered.deepen {g : Grammar} (h : g.Ordered) : g.deepen.Ordered where
  assign := reads_assignment
  unary := reads_unary
  binaryTail := reads_binaryTail
  leftSide := reads_leftSide
  newCallee := reads_newCallee
  type := passes_typePhrase
  pattern := passes_bindingPattern
  element := reads_markup
  statement := reads_statement
  item := reads_moduleItem
  namespaceBody := reads_dottedNamespace

/-- So everything keeps to the order at every depth. -/
instance Grammar.ordered_ofDepth (depth : Nat) : (Grammar.ofDepth depth).Ordered := by
  induction depth with
  | zero => exact Grammar.ordered_exhausted
  | succ depth ih => exact ih.deepen

/-- The items of a module are read one behind the other. -/
theorem reads_moduleItems {r : Reading} {lo : Location} {way : List Stop} {g : Grammar}
    [g.Ordered] :
    ⦃r.past lo way⦄ moduleItems g ⦃r.reads lo way⦄ := by
  unfold moduleItems
  refine reads_repeating fun done => finds_bind passes_atEnd fun _ => ?_
  split
  · exact finds_pure (by simp)
  · exact finds_bind Grammar.Ordered.item fun next => finds_pure (by simp)

/-- **Every script has its message calls in the order of its text.** -/
theorem pairwise_sourceCalls {typescript jsx : Bool} {text : List Char} {program : Program}
    (h : Program.parse typescript jsx text = .ok program) (names : List String) :
    ((Node.ofProgram (Text.locate text) program).sourceCalls names).Pairwise Call.Before := by
  unfold Program.parse at h
  dsimp only at h
  split at h
  case h_2 => cases h
  case h_1 items s hrun =>
    cases h
    let r : Reading := ⟨text, names⟩
    have hread : ⦃r.past (r.locate (State.first text).start) []⦄
        moduleItems (Grammar.ofDepth (depthFor text.length)) ⦃r.reads (r.locate _) []⦄ :=
      reads_moduleItems
    have hpast := triple_iff.mp hread { typescript, jsx, bound := text.length + 2 }
      (State.first text) ⟨placed_first text, le_rfl⟩
    rw [hrun] at hpast
    have htrail : Trail (r.locate _) (r.stops items) (r.locate s.start) := hpast.trail
    rw [stops_program ⟨items⟩] at htrail
    exact htrail.pairwise_before

end StringHarvest.Script
