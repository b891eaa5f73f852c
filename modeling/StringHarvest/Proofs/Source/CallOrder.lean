import StringHarvest.Proofs.Node.SourceOrder
import StringHarvest.Proofs.Script.Order.Program

/-!
# Visits in the order of the text

The messages of a source come into the catalog in the order in which the walk visits their calls.
This file says when that is the order of the text.

**Main theorem** (`pairwise_messageCalls_iff_of_parse`): whatever text is read, the
message calls are visited in the order of their places exactly if the walk comes to no
conditional expression with message calls in both of its branches; and the catalog lists
the ids in the order of their first visits.

The calls of such a conditional are the only ones out of place: with the branches taken in the order
in which they stand, the places increase for every text (`Script.pairwise_sourceCalls`).
-/

namespace StringHarvest

open Catalog

namespace Catalog

/-- Inserting messages lists their ids in the order in which they first occur. -/
theorem idsOf_ofList (l : List Message) : idsOf (ofList l).messages = (idsOf l).eraseDups := by
  induction l using List.reverseRecOn with
  | nil => rfl
  | append_singleton l m ih =>
      have hmem : m.id ∈ idsOf (ofList l).messages ↔ m.id ∈ idsOf l := mem_idsOf_ofList m.id l
      rw [ofList_concat, messages_insert, idsOf_append, List.eraseDups_append, ← ih]
      by_cases h : m.id ∈ idsOf l
      · rw [idsOf_put_of_mem (hmem.mpr h)]
        simp [List.removeAll, h]
      · rw [idsOf_put_of_notMem (hmem.not.mpr h)]
        simp [List.removeAll, h, List.eraseDups_cons]

end Catalog

namespace Source

variable {text path : String} {language : Language} {source : Source}

/-- A source that is parsed has the tree of its text. -/
theorem parse_eq_ok (h : parse text path language = .ok source) :
    ∃ program, Script.Program.parse language.hasTypes (language.hasMarkup path) text.toList =
        .ok program ∧
      source.program = Node.ofProgram (Text.locate text.toList) program := by
  unfold parse at h
  dsimp only at h
  split at h
  case h_1 program hprogram =>
    cases h
    exact ⟨program, hprogram, rfl⟩
  case h_2 => cases h

/-- **The visits are in the order of the text** exactly if the walk comes to no conditional
expression with message calls in both branches; the catalog follows the visits. -/
theorem pairwise_messageCalls_iff_of_parse (h : parse text path language = .ok source)
    (names : List String) :
    ((source.program.messageCalls names).Pairwise Call.Before ↔
      ∀ node, Node.Visits names source.program node → ¬ node.Splits names) ∧
    idsOf (ofSource names source).messages =
      (idsOf (messagesOf names source.lines source.program)).eraseDups := by
  obtain ⟨program, hprogram, hnode⟩ := parse_eq_ok h
  refine ⟨?_, idsOf_ofList _⟩
  rw [hnode]
  exact Node.pairwise_messageCalls_iff (Script.pairwise_sourceCalls hprogram names)

/-- What is known of a parsed source is known of some source. -/
theorem exists_of_map_parse {α : Type} {f : Source → α} {value : α}
    (h : (parse text path language).toOption.map f = some value) :
    ∃ source, parse text path language = .ok source ∧ f source = value := by
  cases hparse : parse text path language with
  | error e => simp [hparse, Except.toOption] at h
  | ok source => exact ⟨source, rfl, by simpa [hparse, Except.toOption] using h⟩

/-- With all calls in one branch of a conditional expression, the visits are in the order of the
text, and so are the ids in the catalog. -/
theorem pairwise_messageCalls_oneBranch :
    ∃ source, parse "tr('a'); x ? tr('b') + tr('c') : y" "" .javascript = .ok source ∧
      (source.program.messageCalls ["tr"]).length = 3 ∧
      (source.program.messageCalls ["tr"]).Pairwise Call.Before ∧
      idsOf (ofSource ["tr"] source).messages = [⟨"", "a"⟩, ⟨"", "b"⟩, ⟨"", "c"⟩] := by
  obtain ⟨source, hparse, hfound⟩ : ∃ source,
      parse "tr('a'); x ? tr('b') + tr('c') : y" "" .javascript = .ok source ∧
        ((source.program.messageCalls ["tr"]).length, source.program.keepsOrder ["tr"] 5,
          idsOf (messagesOf ["tr"] source.lines source.program)) =
            (3, true, [⟨"", "a"⟩, ⟨"", "b"⟩, ⟨"", "c"⟩]) :=
    exists_of_map_parse (by decide +kernel)
  obtain ⟨hcount, hapart, hids⟩ : _ ∧ _ ∧ _ := by simpa only [Prod.mk.injEq] using hfound
  obtain ⟨horder, hcatalog⟩ := pairwise_messageCalls_iff_of_parse hparse ["tr"]
  refine ⟨source, hparse, hcount, ?_, ?_⟩
  · exact horder.mpr fun node hvisits => Node.not_splits_of_keepsOrder hapart hvisits
  · rw [hcatalog, hids]
    decide

/-- With calls in both branches, the one behind comes first. -/
theorem not_pairwise_messageCalls_bothBranches :
    ∃ source, parse "x ? tr(\"a\") : tr(\"b\")" "" .javascript = .ok source ∧
      ¬ (source.program.messageCalls ["tr"]).Pairwise Call.Before ∧
      idsOf (ofSource ["tr"] source).messages = [⟨"", "b"⟩, ⟨"", "a"⟩] := by
  obtain ⟨source, hparse, hfound⟩ : ∃ source,
      parse "x ? tr(\"a\") : tr(\"b\")" "" .javascript = .ok source ∧
        ((source.program.messageCalls ["tr"]).map Call.location,
          idsOf (ofSource ["tr"] source).messages) =
          ([some ⟨1, 15⟩, some ⟨1, 5⟩], [⟨"", "b"⟩, ⟨"", "a"⟩]) :=
    exists_of_map_parse (by decide +kernel)
  obtain ⟨hplaces, hids⟩ := Prod.mk.inj hfound
  refine ⟨source, hparse, fun hordered => ?_, hids⟩
  have hpairwise : ((source.program.messageCalls ["tr"]).map Call.location).Pairwise
      fun l m => ∃ a ∈ l, ∃ b ∈ m, a < b :=
    List.pairwise_map.mpr hordered
  rw [hplaces] at hpairwise
  obtain ⟨a, ha, b, hb, hlt⟩ := List.rel_of_pairwise_cons hpairwise (List.mem_singleton_self _)
  cases ha
  cases hb
  exact absurd hlt (by decide)

end Source

end StringHarvest
