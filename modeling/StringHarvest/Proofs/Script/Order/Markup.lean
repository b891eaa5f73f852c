import StringHarvest.Proofs.Script.Order.Expressions
import StringHarvest.Script.Parse.Markup

/-!
# Readers in the order of the text: markup

An element has the stops of its attributes and of its children, one behind the other. Its name and
its closing tag have none, and neither has the text between the tags.
-/

namespace StringHarvest.Script

open StringHarvest.Script.Parser Std.Do

variable {r : Reading} {lo : Location} {way : List Stop} {g : Grammar} [g.Ordered]

/-- A word of a name is passed. -/
theorem passes_tagNamePart : ⦃r.past lo way⦄ tagName.part ⦃r.passes lo way⦄ := by
  unfold tagName.part
  refine finds_bind passes_token fun _ => ?_
  split
  · exact finds_bind passes_advanceTag fun _ => passes_pure
  · exact finds_unexpected

/-- The name of a tag is passed. -/
theorem passes_tagName : ⦃r.past lo way⦄ tagName ⦃r.passes lo way⦄ := by
  unfold tagName
  refine finds_bind passes_tagNamePart fun first => finds_bind passes_atPunct fun _ => ?_
  split
  · refine finds_bind passes_advanceTag fun _ => ?_
    exact finds_bind passes_tagNamePart fun _ => passes_pure
  · refine passes_repeating fun name => finds_bind passes_atPunct fun _ => ?_
    split
    · refine finds_bind passes_advanceTag fun _ => ?_
      exact finds_bind passes_tagNamePart fun _ => passes_pure
    · exact passes_pure

/-- What stands between braces has the stops of its value. -/
theorem reads_container : ⦃r.past lo way⦄ container g ⦃r.reads lo way⦄ := by
  unfold container
  refine finds_bind passes_advance fun _ => finds_bind passes_atPunct fun _ => ?_
  split
  · exact finds_pure (by simp)
  refine finds_behind (finds_within (finds_bind passes_eat fun _ => ?_)) fun value => ?_
  · split
    · exact finds_bind reads_expressionIn fun value => finds_pure (by simp)
    · exact finds_bind reads_expressionIn fun value => finds_pure (by simp)
  · refine finds_bind passes_atPunct fun _ => ?_
    extract_lets -underBinder closed
    have hclosed (u) : ⦃r.past lo (way ++ r.stops value)⦄ closed u ⦃r.reads lo way⦄ :=
      finds_pure (by simp)
    clear_value closed
    split
    · exact finds_bind passes_token fun t => finds_bind finds_fail hclosed
    · exact hclosed ()

/-- The value of an attribute is a text, what stands between braces, or another element. -/
theorem reads_attributeValue : ⦃r.past lo way⦄ attributeValue g ⦃r.reads lo way⦄ := by
  refine finds_bind passes_position fun start => finds_bind passes_token fun t => ?_
  split
  · exact finds_bind passes_advanceTag fun _ => finds_pure (by simp)
  · refine finds_bind reads_container fun found => ?_
    split
    · exact finds_bind passes_advanceTag fun _ => finds_pure (by simp)
    · exact finds_bind passes_advanceTag fun _ => finds_pure (by simp)
    · exact finds_failAt
  · refine finds_bind Grammar.Ordered.element fun ⟨nested, misfit⟩ => ?_
    refine finds_bind passes_advanceTag fun _ => finds_bind passes_failIf fun _ => ?_
    exact finds_pure (by simp)
  · exact finds_fail

/-- An attribute has the stops of its value. -/
theorem reads_tagAttribute : ⦃r.past lo way⦄ tagAttribute g ⦃r.reads lo way⦄ := by
  unfold tagAttribute
  refine finds_bind passes_atPunct fun _ => ?_
  split
  · refine finds_bind passes_advance fun _ => finds_bind passes_expect fun _ => ?_
    refine finds_bind (finds_within reads_assignIn) fun value => ?_
    refine finds_bind passes_atPunct fun _ => ?_
    extract_lets -underBinder closed
    have hclosed (u) : ⦃r.past lo (way ++ r.stops value)⦄ closed u ⦃r.reads lo way⦄ :=
      finds_bind passes_advanceTag fun _ => finds_pure (by simp)
    clear_value closed
    split
    · exact finds_bind passes_token fun t => finds_bind finds_fail hclosed
    · exact hclosed ()
  · refine finds_bind passes_tagName fun _ => finds_bind passes_atPunct fun _ => ?_
    split
    · exact finds_bind passes_advanceTag fun _ => reads_attributeValue
    · exact finds_pure (by simp)

/-- Attributes are read one behind the other. -/
theorem reads_tagAttributes : ⦃r.past lo way⦄ tagAttributes g ⦃r.reads lo way⦄ := by
  unfold tagAttributes
  refine reads_repeating fun done => finds_bind passes_atAny fun _ => ?_
  split
  · exact finds_pure (by simp)
  · exact finds_bind reads_tagAttribute fun next => finds_pure (by simp)

/-- The text between tags is passed: the state behind it is a later one, and its token is no
parenthesis. -/
theorem passes_skipText : ⦃r.past lo way⦄ skipText ⦃r.passes lo way⦄ := by
  refine passes_of_later fun c s hs => ?_
  obtain ⟨n, token, length, hrun, htoken⟩ : ∃ n token length,
      skipText c s = .done () ⟨token, s.stop + n, false, s.rest.drop n, s.stop + n + length,
        (s.rest.drop n).drop length⟩ ∧ token ≠ .punct .parenL := by
    unfold skipText
    dsimp only
    split <;> exact ⟨_, _, _, rfl, nofun⟩
  have hhere : s.rest.drop n = r.text.drop (s.stop + n) := by rw [hs.rest, List.drop_drop]
  refine ⟨_, ⟨hhere, ?_, Nat.le_add_right .., fun hparen => absurd hparen htoken⟩, ?_,
    .inl ⟨(), hrun⟩⟩
  · simp only [hhere, List.drop_drop]
  · exact hs.start_le_stop.trans (Nat.le_add_right ..)

/-- The children of an element are read one behind the other. -/
theorem reads_children : ⦃r.past lo way⦄ children g ⦃r.reads lo way⦄ := by
  refine finds_bind passes_skipText fun _ => reads_repeating fun done => ?_
  refine finds_bind passes_token fun t => ?_
  split
  · refine finds_bind reads_container fun found => ?_
    extract_lets -underBinder next
    have hnext (part) : ⦃r.past lo (way ++ r.stops done.reverse ++ r.stops part)⦄ next part
        ⦃r.collects lo way⦄ :=
      finds_bind passes_skipText fun _ => finds_pure (by simp)
    clear_value next
    split
    · exact finds_given (finds_keep (by simp) (hnext _))
    · exact finds_given (finds_keep (by simp) (hnext _))
    · exact finds_given (finds_keep (by simp) (hnext _))
  · refine finds_bind Grammar.Ordered.element fun ⟨nested, misfit⟩ => ?_
    refine finds_bind passes_skipText fun _ => finds_bind passes_failIf fun _ => ?_
    exact finds_pure (by simp)
  · exact finds_pure (by simp)
  · exact finds_fail

/-- To look for the end of a tag is to pass nothing. -/
theorem passes_tagEnd : ⦃r.past lo way⦄ tagEnd ⦃r.passes lo way⦄ := by
  unfold tagEnd
  refine finds_bind passes_atPunct fun _ => ?_
  split
  · exact finds_bind passes_token fun t => finds_fail
  · exact passes_pure

/-- An element has the stops of its attributes and of its children, a fragment those of its
children. -/
theorem reads_markup : ⦃r.past lo way⦄ markup g ⦃r.reads lo way⦄ := by
  unfold markup
  refine finds_bind passes_advanceTag fun _ => finds_bind passes_atPunct fun _ => ?_
  split
  · refine finds_bind reads_children fun parts => finds_bind passes_advanceTag fun _ => ?_
    exact finds_bind passes_tagEnd fun _ => finds_pure (by simp)
  refine finds_bind passes_tagName fun name => finds_bind passes_typescript fun _ => ?_
  refine finds_bind passes_atPunct fun _ => ?_
  extract_lets -underBinder named
  have hnamed (u) : ⦃r.past lo way⦄ named u ⦃r.reads lo way⦄ := by
    refine finds_bind reads_tagAttributes fun settings => finds_bind passes_atPunct fun _ => ?_
    split
    · refine finds_bind passes_advanceTag fun _ => finds_bind passes_tagEnd fun _ => ?_
      exact finds_pure (by simp)
    · refine finds_bind reads_children fun parts => finds_bind passes_advanceTag fun _ => ?_
      refine finds_bind passes_position fun closingStart => ?_
      refine finds_bind passes_tagName fun closing => finds_bind passes_tagEnd fun _ => ?_
      exact finds_pure (by simp)
  clear_value named
  split
  · refine finds_bind (passes_optionally ?_) fun _ => finds_bind passes_retag hnamed
    exact finds_bind passes_typeArguments fun _ => passes_pure
  · exact hnamed ()

end StringHarvest.Script
