import StringHarvest.Proofs.Script.Order.Primary

/-!
# Readers in the order of the text: expressions

Members, calls and operators. A call is found in two steps: the place where its callee starts is
marked before the callee is read, and the parentheses of its arguments are a gap behind that place
(`reads_call`). A phrase that marks a place forgets the mark in the end (`reads_of_marked`).
-/

namespace StringHarvest.Script

open StringHarvest.Script.Parser Std.Do

variable {r : Reading} {lo : Location} {way : List Stop} {g : Grammar} [g.Ordered]

/-! ## Members and calls -/

/-- Type arguments that nothing calls are passed, if they stand. -/
theorem passes_freeTypeArguments :
    ⦃r.past lo way⦄ freeTypeArguments g ⦃r.passes lo way⦄ := by
  refine passes_optionally (finds_bind passes_typeArguments fun _ => ?_)
  refine finds_bind passes_token fun t => ?_
  split
  · exact passes_pure
  refine finds_bind passes_onNewLine fun _ => ?_
  split
  · exact passes_pure
  · exact passes_pure

/-- Type arguments before arguments are passed. -/
theorem passes_callTypeArguments :
    ⦃r.past lo way⦄ callTypeArguments g ⦃r.passes lo way⦄ := by
  refine passes_optionally (finds_bind passes_typeArguments fun _ => ?_)
  refine finds_bind passes_atPunct fun _ => ?_
  split
  · exact passes_pure
  · exact passes_pure

section members

variable {start : Nat} {object : Expr} {noCall : Bool}

/-- **A call** stands behind its callee: the mark before the callee and the gap before the arguments
give the stop of the call, whatever the call is a part of. -/
theorem reads_call {α : Type} (result : Expr → α) {found : α → List Stop} {optional : Bool}
    (hresult : ∀ e, found (result e) = r.marked way start ++ r.stops e) :
    ⦃r.past lo (r.marked way start ++ r.stops object)⦄
      (do return result (.call start object (← arguments g) optional)) ⦃r.finds lo found⦄ := by
  refine finds_bind reads_arguments fun items => finds_pure_of fun h => ?_
  rw [hresult]
  exact h.call optional

/-- Where no subscript follows, nothing is lost. -/
theorem finds_typedSubscript :
    ⦃r.past lo (r.marked way start ++ r.stops object)⦄ typedSubscript g start object noCall
      ⦃r.finds lo fun value => r.marked way start ++ r.stops (value.getD object)⦄ := by
  unfold typedSubscript
  refine finds_bind (finds_optionally (r.marked way start ++ r.stops ·) ?_) fun called => ?_
  · refine finds_bind passes_typeArguments fun _ => finds_bind passes_atPunct fun isCall => ?_
    split
    · exact reads_call some fun _ => rfl
    refine finds_bind passes_atTemplate fun _ => ?_
    split
    · exact finds_bind reads_templateHoles fun values => finds_pure (by simp)
    · exact finds_pure (by simp)
  · cases called with
    | some value => exact finds_pure (by simp)
    | none =>
        refine finds_bind passes_freeTypeArguments fun isFree => ?_
        split
        · exact finds_pure (by simp)
        · exact finds_pure (by simp)

/-- The member or the call behind a `?.` stands behind its object. -/
theorem reads_optionalSubscript :
    ⦃r.past lo (r.marked way start ++ r.stops object)⦄ optionalSubscript g start object
      ⦃r.reads lo (r.marked way start)⦄ := by
  unfold optionalSubscript
  refine finds_bind passes_eat fun isComputed => ?_
  split
  · refine finds_bind reads_expressionIn fun value => finds_bind passes_expect fun _ => ?_
    exact finds_pure (by simp)
  · refine finds_bind passes_typescript fun ts => finds_bind passes_atAny fun isTyped => ?_
    refine finds_when passes_typeArguments (finds_bind passes_atPunct fun isCall => ?_)
    split
    · exact reads_call id fun _ => rfl
    · exact finds_bind reads_memberName fun _ => finds_pure (by simp)

/-- Every subscript extends what stands before it. -/
theorem reads_subscripts {first : Expr} :
    ⦃r.past lo (r.marked way start ++ r.stops first)⦄ subscripts g noCall start first
      ⦃r.reads lo (r.marked way start)⦄ := by
  refine reads_extending fun object => ?_
  refine finds_bind passes_context fun c => finds_bind passes_state fun s => ?_
  split
  · split
    · exact finds_bind passes_advance fun _ => finds_pure (by simp)
    · exact finds_pure (by simp)
  · split
    · refine finds_bind finds_typedSubscript fun value => ?_
      cases value <;> exact finds_pure (by simp)
    · exact finds_pure (by simp)
  · split
    · refine finds_bind finds_typedSubscript fun value => ?_
      cases value <;> exact finds_pure (by simp)
    · exact finds_pure (by simp)
  · refine finds_bind passes_advance fun _ => finds_bind reads_expressionIn fun value => ?_
    exact finds_bind passes_expect fun _ => finds_pure (by simp)
  · refine finds_bind passes_advance fun _ => finds_bind reads_optionalSubscript fun _ => ?_
    exact finds_pure (by simp)
  · refine finds_bind passes_advance fun _ => finds_bind reads_memberName fun _ => ?_
    exact finds_pure (by simp)
  · split
    · exact finds_pure (by simp)
    · exact reads_call Sum.inl fun _ => rfl
  · exact finds_bind reads_templateHoles fun values => finds_pure (by simp)
  · exact finds_pure (by simp)

/-- A member or a call of the parent class has the stops of its arguments and of what follows them.
-/
theorem reads_superExpression :
    ⦃r.past lo way⦄ superExpression g noCall ⦃r.reads lo way⦄ := by
  refine finds_bind marks_position fun start => reads_of_marked ?_
  refine finds_bind passes_advance fun _ => finds_bind passes_context fun c => ?_
  refine finds_bind passes_atPunct fun _ => ?_
  split
  · exact finds_bind reads_arguments fun items => finds_keep (by simp) reads_subscripts
  refine finds_bind passes_eat fun _ => ?_
  split
  · refine finds_bind reads_memberName fun name => finds_when finds_failAt ?_
    exact finds_keep (by simp) reads_subscripts
  refine finds_bind passes_eat fun _ => ?_
  split
  · refine finds_bind reads_expressionIn fun value => finds_bind passes_expect fun _ => ?_
    exact finds_when finds_failAt (finds_keep (by simp) reads_subscripts)
  · exact finds_failAt

/-- So has an import that is an expression. -/
theorem reads_importExpression :
    ⦃r.past lo way⦄ importExpression g noCall ⦃r.reads lo way⦄ := by
  refine finds_bind marks_position fun start => reads_of_marked ?_
  have hcall : ⦃r.past lo (r.marked way start)⦄
      (do subscripts g noCall start (.importCall start (← arguments g)))
      ⦃r.reads lo (r.marked way start)⦄ :=
    finds_bind reads_arguments fun items => finds_keep (by simp) reads_subscripts
  refine finds_bind passes_advance fun _ => finds_bind passes_eat fun _ => ?_
  split
  · refine finds_bind passes_anyWord fun word => ?_
    split
    · exact finds_keep (by simp) reads_subscripts
    · exact hcall
    · exact hcall
    · exact finds_unexpected
  · exact hcall

/-- What can be constructed is read with its arguments; a `new` is no call. -/
theorem reads_newCallee : ⦃r.past lo way⦄ newCallee g ⦃r.reads lo way⦄ := by
  refine finds_bind marks_position fun start => finds_bind passes_token fun t => ?_
  refine reads_of_marked ?_
  split
  · refine finds_bind passes_advance fun _ => finds_bind passes_eat fun isTarget => ?_
    split
    · refine finds_bind passes_eatWord fun _ => ?_
      split
      · exact finds_keep (by simp) reads_subscripts
      · exact finds_unexpected
    refine finds_bind Grammar.Ordered.newCallee fun callee => ?_
    extract_lets -underBinder allowed
    have hallowed (u) : ⦃r.past lo (r.marked way start ++ r.stops callee)⦄ allowed u
        ⦃r.reads lo (r.marked way start)⦄ := by
      refine finds_bind passes_typescript fun _ => finds_bind passes_atAny fun _ => ?_
      refine finds_when passes_callTypeArguments (finds_bind passes_atPunct fun _ => ?_)
      split
      · exact finds_bind reads_arguments fun items => finds_keep (by simp) reads_subscripts
      · exact finds_pure (by simp)
    clear_value allowed
    split
    · exact finds_bind finds_failAt hallowed
    · exact hallowed ()
  · exact reads_superExpression
  · exact reads_importExpression
  · refine finds_bind reads_primary fun object => ?_
    split
    · exact finds_pure (by simp)
    · exact reads_subscripts

/-- What can be called is read from its mark on, so its first parentheses may be those of a call. -/
theorem reads_leftSide : ⦃r.past lo way⦄ leftSide g ⦃r.reads lo way⦄ := by
  refine finds_bind passes_context fun c => finds_bind marks_state fun s => ?_
  refine reads_of_marked ?_
  split
  · split
    · refine finds_bind Grammar.Ordered.element fun ⟨element, misfit⟩ => ?_
      refine finds_bind passes_advance fun _ => finds_bind passes_failIf fun _ => ?_
      exact finds_pure (by simp)
    · exact finds_fail
  · exact reads_superExpression
  · exact reads_importExpression
  · refine finds_bind Grammar.Ordered.newCallee fun callee => ?_
    split
    · exact finds_pure (by simp)
    refine finds_bind passes_atAny fun isTyped => finds_when passes_callTypeArguments ?_
    refine finds_bind passes_atPunct fun isCall => ?_
    split
    · refine finds_bind reads_arguments fun items => ?_
      exact finds_of_past (fun h => h.call false) reads_subscripts
    · exact finds_pure (by simp)

end members

/-! ## Operators -/

/-- An awaited expression has the stops of its operand. -/
theorem reads_awaitExpression : ⦃r.past lo way⦄ awaitExpression g ⦃r.reads lo way⦄ := by
  unfold awaitExpression
  refine finds_bind passes_advance fun _ => finds_bind passes_atPunct fun _ => ?_
  refine finds_when finds_fail (finds_bind passes_context fun c => ?_)
  refine finds_bind passes_atStatementEnd fun _ => finds_bind passes_atAny fun _ => ?_
  split
  · exact finds_pure (by simp)
  · exact finds_bind Grammar.Ordered.unary fun value => finds_pure (by simp)

/-- An operand that cannot be read has no stops. -/
theorem reads_operand : ⦃r.past lo way⦄ operand g ⦃r.reads lo way⦄ := by
  refine finds_bind (reads_attempt Grammar.Ordered.unary) fun read => ?_
  split
  · exact finds_pure (by simp)
  · exact finds_pure (by simp)

/-- An update behind an expression has no stops of its own. -/
theorem reads_postfixed : ⦃r.past lo way⦄ unary.postfixed g ⦃r.reads lo way⦄ := by
  unfold unary.postfixed
  refine finds_bind reads_leftSide fun value => ?_
  split
  · exact finds_pure (by simp)
  refine finds_bind passes_onNewLine fun _ => finds_bind passes_atAny fun _ => ?_
  split
  · exact finds_bind passes_advance fun _ => finds_pure (by simp)
  · exact finds_pure (by simp)

/-- Operators before an operand have no stops of their own. -/
theorem reads_unary : ⦃r.past lo way⦄ unary g ⦃r.reads lo way⦄ := by
  refine finds_bind passes_context fun c => finds_bind passes_token fun t => ?_
  split
  · split
    · refine finds_bind passes_advance fun _ => finds_bind passes_eatWord fun _ => ?_
      split
      · refine finds_bind passes_expectGreater fun _ => ?_
        exact finds_bind Grammar.Ordered.unary fun value => finds_pure (by simp)
      · refine finds_bind Grammar.Ordered.type fun _ => finds_bind passes_expectGreater fun _ => ?_
        exact finds_bind Grammar.Ordered.unary fun value => finds_pure (by simp)
    · exact reads_leftSide
  · refine finds_bind passes_advance fun _ => ?_
    exact finds_bind Grammar.Ordered.unary fun value => finds_pure (by simp)
  · refine finds_bind passes_advance fun _ => ?_
    exact finds_bind Grammar.Ordered.unary fun value => finds_pure (by simp)
  · exact finds_bind passes_advance fun _ => finds_bind reads_operand fun _ => finds_pure (by simp)
  · exact finds_bind passes_advance fun _ => finds_bind reads_operand fun _ => finds_pure (by simp)
  · exact finds_bind passes_advance fun _ => finds_bind reads_operand fun _ => finds_pure (by simp)
  · exact finds_bind passes_advance fun _ => finds_bind reads_operand fun _ => finds_pure (by simp)
  · exact reads_awaitExpression
  · split
    · refine finds_bind passes_advance fun _ => finds_bind reads_operand fun _ => ?_
      exact finds_pure (by simp)
    · exact reads_postfixed
  · exact reads_postfixed

/-- Every operator extends what stands before it by its right operand. -/
theorem reads_binaryTail {first : Expr} {least : Nat} :
    ⦃r.past lo (way ++ r.stops first)⦄ binaryTail g first least ⦃r.reads lo way⦄ := by
  refine reads_extending fun left => ?_
  refine finds_bind passes_context fun c => finds_bind passes_state fun s => ?_
  split
  · refine finds_bind passes_advance fun _ => finds_bind passes_eatWord fun _ => ?_
    split
    · exact finds_pure (by simp)
    · exact finds_bind Grammar.Ordered.type fun _ => finds_pure (by simp)
  split
  · refine finds_bind passes_advance fun _ => finds_bind Grammar.Ordered.type fun _ => ?_
    exact finds_pure (by simp)
  split
  · exact finds_pure (by simp)
  split
  · exact finds_pure (by simp)
  · refine finds_bind passes_advance fun _ => finds_when finds_fail ?_
    refine finds_bind Grammar.Ordered.unary fun operand => ?_
    exact finds_bind Grammar.Ordered.binaryTail fun right => finds_pure (by simp)

/-- A conditional expression has the stops of its branches, anything less has its own. -/
theorem reads_conditional : ⦃r.past lo way⦄ conditional g ⦃r.reads lo way⦄ := by
  unfold conditional
  refine finds_bind reads_binary fun test => ?_
  split
  · exact finds_pure (by simp)
  refine finds_bind passes_eat fun _ => ?_
  split
  · exact finds_keep (by simp) reads_branches
  · exact finds_pure (by simp)

/-- A `yield` has the stops of its value. -/
theorem reads_yieldExpression : ⦃r.past lo way⦄ yieldExpression g ⦃r.reads lo way⦄ := by
  unfold yieldExpression
  refine finds_bind passes_advance fun _ => finds_bind passes_atStatementEnd fun _ => ?_
  refine finds_bind passes_token fun _ => finds_bind passes_atPunct fun _ => ?_
  split
  · exact finds_pure (by simp)
  · refine finds_bind passes_eat fun _ => finds_bind Grammar.Ordered.assign fun value => ?_
    exact finds_pure (by simp)

/-- An arrow function behind type parameters is read, if it is one. -/
theorem reads_genericArrow : ⦃r.past lo way⦄ genericArrow g ⦃r.reads lo way⦄ := by
  refine finds_within (reads_optionally (finds_bind passes_typeParameters fun _ => ?_))
  refine finds_bind Grammar.Ordered.assign fun value => ?_
  split
  · exact finds_pure (by simp)
  · exact finds_pure (by simp)

/-- An expression without a comma at its top is read: an arrow function, a `yield`, or a conditional
expression that may be assigned to. -/
theorem reads_assignment : ⦃r.past lo way⦄ assignment g ⦃r.reads lo way⦄ := by
  unfold assignment
  refine finds_bind passes_context fun c => finds_bind passes_state fun s => ?_
  extract_lets -underBinder valid
  have hvalid (u) : ⦃r.past lo way⦄ valid u ⦃r.reads lo way⦄ := by
    refine finds_bind passes_peek fun ⟨next, _⟩ => ?_
    dsimp -zeta only
    extract_lets -underBinder plain
    have hplain (u) : ⦃r.past lo way⦄ plain u ⦃r.reads lo way⦄ := by
      unfold plain
      split
      · exact reads_yieldExpression
      · refine finds_within (finds_bind reads_conditional fun value => ?_)
        split
        · exact finds_pure (by simp)
        · exact reads_finishAssignment
    clear_value plain
    split
    · exact finds_ifRead reads_genericArrow (fun _ => finds_pure (by simp)) (hplain ())
    · exact hplain ()
  clear_value valid
  split
  · exact finds_bind finds_failAt hvalid
  · exact hvalid ()

end StringHarvest.Script
