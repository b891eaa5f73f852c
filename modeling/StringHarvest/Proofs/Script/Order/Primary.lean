import StringHarvest.Proofs.Script.Order.Functions

/-!
# Readers in the order of the text: literals and parentheses

What an expression may start with. Parentheses are read once, as items that may be expressions or
parameters; where they turn out to be parameters, what was read of them is forgotten (`finds_keep`).
A loop keeps the stops of the pieces it has collected (`reads_repeating`).
-/

namespace StringHarvest.Script

open StringHarvest.Script.Parser Std.Do

variable {r : Reading} {lo : Location} {way : List Stop} {g : Grammar} [g.Ordered]

/-- An element has the stops of its expression. -/
theorem reads_element : ⦃r.past lo way⦄ element g ⦃r.reads lo way⦄ := by
  unfold element
  refine finds_bind passes_eat fun _ => ?_
  split
  · exact finds_bind reads_assignIn fun _ => finds_pure (by simp)
  · exact finds_bind reads_assignIn fun _ => finds_pure (by simp)

/-- Between the callee and the arguments of a call stands a parenthesis. -/
theorem reads_arguments : ⦃r.past lo way⦄ arguments g ⦃r.reads lo (way ++ [.gap])⦄ := by
  refine finds_within (finds_bind gap_expect fun _ => ?_)
  refine finds_behind (reads_repeating fun done => ?_) fun items => ?_
  · refine finds_bind passes_atPunct fun _ => ?_
    split
    · exact finds_pure (by simp)
    split
    · -- before the first argument there is no comma
      exact finds_bind reads_element fun next => finds_pure (by simp_all)
    · refine finds_bind passes_expect fun _ => finds_bind passes_atPunct fun _ => ?_
      split
      · exact finds_pure (by simp)
      · exact finds_bind reads_element fun next => finds_pure (by simp)
  · exact finds_bind passes_expect fun _ => finds_pure (by simp)

/-- The elements of an array are read one behind the other. -/
theorem reads_arrayLiteral : ⦃r.past lo way⦄ arrayLiteral g ⦃r.reads lo way⦄ := by
  unfold arrayLiteral
  refine finds_within (finds_bind passes_advance fun _ => ?_)
  refine finds_behind (reads_repeating fun done => ?_) fun items => ?_
  · refine finds_bind passes_atPunct fun _ => ?_
    split
    · exact finds_pure (by simp)
    refine finds_bind passes_eat fun _ => ?_
    split
    · exact finds_pure (by simp)
    · refine finds_bind reads_element fun next => finds_bind passes_atPunct fun _ => ?_
      exact finds_when passes_expect (finds_pure (by simp))
  · exact finds_bind passes_expect fun _ => finds_pure (by simp)

/-- A member of an object has the stops of its value, its body or its initial value; its key has
none. -/
theorem reads_objectMember : ⦃r.past lo way⦄ objectMember g ⦃r.reads lo way⦄ := by
  unfold objectMember
  refine finds_bind passes_position fun start => finds_bind passes_eat fun isSpread => ?_
  split
  · exact finds_bind reads_assignIn fun _ => finds_pure (by simp)
  refine finds_bind passes_eat fun isGenerator => ?_
  split
  · exact finds_bind passes_key fun _ => finds_bind reads_method fun _ => finds_pure (by simp)
  refine finds_bind passes_eatParameterModifier fun _ => finds_bind passes_key fun k => ?_
  refine finds_bind passes_eat fun isKeyed => ?_
  split
  · exact finds_bind reads_assignIn fun _ => finds_pure (by simp)
  refine finds_bind passes_atMethod fun isMethod => ?_
  split
  · exact finds_bind reads_method fun _ => finds_pure (by simp)
  split
  · refine finds_bind passes_eat fun _ => finds_bind passes_eat fun isInitialised => ?_
    split
    · exact finds_bind reads_assignIn fun _ => finds_pure (by simp)
    refine finds_bind passes_atAny fun isShorthand => ?_
    split
    · exact finds_pure (by simp)
    split
    · refine finds_bind passes_key fun k => ?_
      refine finds_bind (finds_within (reads_functionParts passes_parameters)) fun body => ?_
      exact finds_pure (by simp)
    · refine finds_bind passes_key fun k => ?_
      refine finds_bind (finds_within (reads_functionParts passes_parameters)) fun body => ?_
      exact finds_pure (by simp)
    · refine finds_bind passes_eat fun isGenerator => finds_bind passes_key fun k => ?_
      exact finds_bind reads_method fun body => finds_pure (by simp)
    · refine finds_bind passes_typescript fun _ => ?_
      split
      · exact finds_unexpected
      · exact finds_unexpected
  · exact finds_unexpected

/-- The members of an object are read one behind the other. -/
theorem reads_objectLiteral : ⦃r.past lo way⦄ objectLiteral g ⦃r.reads lo way⦄ := by
  unfold objectLiteral
  refine finds_within (finds_bind passes_expect fun _ => ?_)
  refine finds_behind (reads_repeating fun done => ?_) fun members => ?_
  · refine finds_bind passes_eat fun _ => ?_
    split
    · exact finds_pure (by simp)
    · refine finds_bind reads_objectMember fun next => finds_bind passes_atPunct fun _ => ?_
      exact finds_when passes_expect (finds_pure (by simp))
  · exact finds_pure (by simp)

/-- The expressions in a template are read one behind the other. -/
theorem reads_templateHoles {hasTag : Bool} :
    ⦃r.past lo way⦄ templateHoles g hasTag ⦃r.reads lo way⦄ := by
  refine finds_within (reads_repeating fun done => finds_bind passes_token fun t => ?_)
  split
  · next ending badEscape =>
      split
      · exact finds_failAt
      refine finds_bind passes_advance fun _ => ?_
      cases ending with
      | closed => exact finds_pure (by simp)
      | hole =>
          refine finds_bind reads_expressionIn fun value => finds_bind passes_atPunct fun _ => ?_
          refine finds_when finds_unexpected ?_
          exact finds_bind passes_rereadTemplate fun _ => finds_pure (by simp)
  · exact finds_failAt
  · exact finds_fail

/-- To look for a template is to pass nothing. -/
theorem passes_atTemplate : ⦃r.past lo way⦄ atTemplate ⦃r.passes lo way⦄ := by
  unfold atTemplate
  refine finds_bind passes_token fun _ => ?_
  split
  · exact passes_pure
  · exact passes_pure

/-- Operands and operators are read one behind the other. A missing first operand has no stops. -/
theorem reads_binary : ⦃r.past lo way⦄ binary g ⦃r.reads lo way⦄ := by
  have hmissing : ∀ failed : Except Failure Expr,
      ⦃r.past lo (way ++ r.stops failed)⦄ g.binaryTail .missing 0 ⦃r.reads lo way⦄ :=
    fun _ => finds_keep (by simp) Grammar.Ordered.binaryTail
  refine finds_bind (reads_attempt Grammar.Ordered.unary) fun read => ?_
  split
  · next left =>
      split
      · exact finds_pure (by simp)
      · exact Grammar.Ordered.binaryTail
  · refine finds_bind passes_context fun c => finds_bind passes_token fun _ => ?_
    split
    · exact finds_failAt
    · split
      · exact finds_failLike
      · exact hmissing _
    · exact hmissing _
    · split
      · exact hmissing _
      · exact finds_failLike

/-- Of an assignment only the value is kept. The left side stands before it, or is all there is. -/
theorem reads_finishAssignment {start : Nat} {left : Expr} :
    ⦃r.past lo (way ++ r.stops left)⦄ finishAssignment g start left ⦃r.reads lo way⦄ := by
  refine finds_bind passes_token fun t => ?_
  split
  · split
    · extract_lets -underBinder checked
      have hchecked (u) : ⦃r.past lo (way ++ r.stops left)⦄ checked u ⦃r.reads lo way⦄ := by
        refine finds_bind passes_advance fun _ => finds_bind Grammar.Ordered.assign fun value => ?_
        exact finds_pure (by simp)
      clear_value checked
      split
      · split
        · exact finds_bind finds_failAt hchecked
        · exact hchecked ()
      · exact finds_when finds_failAt (hchecked ())
    · exact finds_pure (by simp)
  · exact finds_pure (by simp)

/-- Both branches are read one behind the other. The calls in the test are forgotten. -/
theorem reads_branches {test : Expr} :
    ⦃r.past lo way⦄ branches g test ⦃r.reads lo way⦄ := by
  unfold branches
  refine finds_bind (finds_within Grammar.Ordered.assign) fun consequent => ?_
  refine finds_bind passes_expect fun _ => ?_
  exact finds_bind (finds_within Grammar.Ordered.assign) fun alternate => finds_pure (by simp)

/-! ## Parentheses and arrow functions -/

instance : HasStops ParenItem := ⟨fun r item => r.stops item.value⟩

/-- An item between parentheses has the stops of its expression. -/
@[simp] theorem stops_parenItem (start : Nat) (value : Option Element) :
    r.stops (ParenItem.mk start value) = r.stops value := rfl

/-- What follows a parameter that was first read as an expression is passed; the parameter has no
stops. -/
theorem reads_parameterTail {start : Nat} {value : Element} :
    ⦃r.past lo way⦄ parameterTail g start value ⦃r.reads lo way⦄ := by
  unfold parameterTail
  extract_lets -underBinder checked
  have hchecked (u) : ⦃r.past lo way⦄ checked u ⦃r.reads lo way⦄ := by
    refine finds_bind passes_optionalAnnotation fun _ => ?_
    exact finds_bind passes_optionalDefault fun _ => finds_pure (by simp)
  clear_value checked
  split
  · split
    · exact finds_bind finds_failAt hchecked
    · exact hchecked ()
  · split
    · exact finds_bind finds_failAt hchecked
    · exact hchecked ()
  · exact hchecked ()

/-- An item between parentheses is read as an expression. If it turns out to be a parameter, the
stops of the expression are forgotten. -/
theorem reads_parenItem : ⦃r.past lo way⦄ parenItem g ⦃r.reads lo way⦄ := by
  have htail : ∀ {start front} {value : Element},
      ⦃r.past lo (way ++ r.stops value)⦄ parameterTail g start front ⦃r.reads lo way⦄ :=
    fun {_ _ _} => finds_keep (by simp) reads_parameterTail
  refine finds_bind passes_position fun start => finds_within ?_
  refine finds_bind passes_eatParameterModifier fun _ => finds_bind passes_typescript fun ts => ?_
  split
  · refine finds_bind passes_context fun c => finds_bind passes_peek fun ⟨next, _⟩ => ?_
    refine finds_bind passes_atName fun isName => finds_bind passes_atPunct fun isSpread => ?_
    extract_lets -underBinder read
    suffices hread : ∀ value,
        ⦃r.past lo (way ++ r.stops value)⦄ read value ⦃r.reads lo way⦄ by
      clear_value read
      split
      · refine finds_bind passes_eat fun _ => ?_
        split
        · exact finds_bind reads_binary fun value => finds_given (hread (.spread value))
        · refine finds_bind reads_binary fun left => ?_
          exact finds_bind reads_finishAssignment fun value => finds_given (hread (.item value))
      · exact finds_bind reads_element hread
    intro value
    refine finds_bind passes_atPunct fun isOptional => ?_
    extract_lets -underBinder noBranches
    have hplain (u) :
        ⦃r.past lo (way ++ r.stops value)⦄ noBranches u ⦃r.reads lo way⦄ := by
      refine finds_bind passes_atPunct fun _ => ?_
      split
      · exact htail
      · exact finds_pure (by simp)
    clear_value noBranches
    split
    · refine finds_bind passes_peek fun ⟨next, _⟩ => ?_
      dsimp -zeta only
      extract_lets -underBinder noMark
      have hmark (u) : ⦃r.past lo (way ++ r.stops value)⦄ noMark u ⦃r.reads lo way⦄ := by
        cases value with
        | item test =>
            refine finds_bind passes_advance fun _ => finds_bind reads_branches fun whole => ?_
            refine finds_bind passes_atPunct fun _ => ?_
            split
            · exact finds_keep (by simp) reads_parameterTail
            · exact finds_pure (by simp)
        | spread | hole => exact hplain ()
      clear_value noMark
      split
      · refine finds_bind passes_advance fun _ => ?_
        split
        · exact htail
        · exact htail
        · exact finds_bind finds_failAt hmark
      · exact hmark ()
    · exact hplain ()
  · exact finds_bind reads_element fun value => finds_pure (by simp)

/-- The parenthesis before the items is a gap: they may turn out to be arguments. -/
theorem reads_parenItems : ⦃r.past lo way⦄ parenItems g ⦃r.reads lo (way ++ [.gap])⦄ := by
  refine finds_within (finds_bind gap_expect fun _ => ?_)
  refine finds_behind (reads_repeating fun done => ?_) fun items => ?_
  · refine finds_bind passes_atPunct fun _ => ?_
    split
    · exact finds_pure (by simp)
    · refine finds_bind reads_parenItem fun next => finds_bind passes_atPunct fun _ => ?_
      exact finds_when passes_expect (finds_pure (by simp))
  · exact finds_bind passes_expect fun _ => finds_pure (by simp)

/-- To check parameters is to pass nothing. -/
theorem passes_checkParameters (items : List ParenItem) :
    ⦃r.past lo way⦄ checkParameters items ⦃r.passes lo way⦄ := by
  induction items with
  | nil => exact finds_pure (by simp)
  | cons item rest ih =>
      unfold checkParameters
      split
      · split
        · exact finds_failAt
        · exact ih
      · split
        · exact finds_failAt
        · exact ih
      · exact ih

/-- An arrow function in a branch has the stops of its body. -/
theorem reads_arrowInBranch {items : List ParenItem} {isAsync : Bool} :
    ⦃r.past lo way⦄ arrowInBranch g items isAsync ⦃r.reads lo way⦄ := by
  refine reads_optionally (finds_bind passes_predicateAnnotation fun _ => ?_)
  refine finds_bind passes_expect fun _ => finds_bind (passes_checkParameters items) fun _ => ?_
  refine finds_bind reads_arrowBody fun body => finds_bind passes_context fun c => ?_
  refine finds_bind passes_atPunct fun _ => ?_
  split
  · exact finds_pure (by simp)
  · exact finds_pure (by simp)

/-- The items as arguments keep their stops. -/
theorem reads_parenValues (items : List ParenItem) :
    ⦃r.past lo (way ++ r.stops items)⦄ parenValues items ⦃r.reads lo way⦄ := by
  induction items generalizing way with
  | nil => exact finds_pure (by simp)
  | cons item rest ih =>
      obtain ⟨start, value⟩ := item
      cases value with
      | none => exact finds_failAt
      | some value =>
          simp only [parenValues, stops_cons, stops_parenItem, stops_some, ← List.append_assoc]
          exact finds_bind ih fun _ => finds_pure (by simp)

/-- The items as the parts of a sequence keep their stops. -/
theorem reads_plainValues (items : List ParenItem) :
    ⦃r.past lo (way ++ r.stops items)⦄ plainValues items ⦃r.reads lo way⦄ := by
  induction items generalizing way with
  | nil => exact finds_pure (by simp)
  | cons item rest ih =>
      obtain ⟨start, value⟩ := item
      unfold plainValues
      split
      · next value hvalue =>
          cases hvalue
          simp only [stops_cons, stops_parenItem, stops_some, stops_item, ← List.append_assoc]
          exact finds_bind ih fun _ => finds_pure (by simp)
      · exact finds_failAt

/-- Behind a block as its body, an arrow function may be the first operand of an operator. -/
theorem reads_arrowResult {body : Body} :
    ⦃r.past lo (way ++ r.stops body)⦄ arrowResult g body ⦃r.reads lo way⦄ := by
  cases body with
  | block statements =>
      refine finds_bind passes_token fun _ => ?_
      split
      · exact finds_keep (by simp) (Grammar.Ordered.binaryTail (g := g))
      · exact finds_pure (by simp)
  | absent | value => exact finds_pure (by simp)

/-- After the word `async`, whose place is marked, parentheses may be a call. The stops of the items
are kept unless an arrow follows. -/
theorem reads_parenOrArrow {canBeArrow : Bool} {asyncStart : Option Nat}
    (hstart : ∀ start, asyncStart = some start → ∃ front, way = r.marked front start) :
    ⦃r.past lo way⦄ parenOrArrow g canBeArrow asyncStart ⦃r.reads lo way⦄ := by
  unfold parenOrArrow
  refine finds_bind passes_position fun here => ?_
  extract_lets -underBinder start isAsync
  refine finds_bind reads_parenItems fun items => finds_bind passes_context fun c => ?_
  refine finds_bind passes_atPunct fun isColon => ?_
  extract_lets -underBinder noBranch
  suffices hbranch : ∀ u,
      ⦃r.past lo (way ++ [.gap] ++ r.stops items)⦄ noBranch u ⦃r.reads lo way⦄ by
    clear_value noBranch
    split
    · exact finds_ifRead reads_arrowInBranch (fun _ => finds_pure (by simp)) (hbranch ())
    · exact hbranch ()
  intro u
  refine finds_bind passes_atPunct fun isColon => ?_
  extract_lets -underBinder typed
  suffices htyped : ∀ hasResultType,
      ⦃r.past lo (way ++ [.gap] ++ r.stops items)⦄ typed hasResultType ⦃r.reads lo way⦄ by
    clear_value typed
    split
    · refine finds_bind (passes_optionally ?_) fun found => finds_given (htyped _)
      refine finds_bind passes_predicateAnnotation fun _ => finds_bind passes_atPunct fun _ => ?_
      split
      · exact passes_pure
      · exact passes_pure
    · exact finds_given (htyped _)
  intro hasResultType
  refine finds_bind passes_atPunct fun isArrow => ?_
  split
  · clear_value start
    refine finds_bind passes_onNewLine fun _ => finds_when finds_failAt (finds_when finds_failAt ?_)
    refine finds_bind passes_expect fun _ => finds_bind (passes_checkParameters items) fun _ => ?_
    have harrow := @reads_arrowBody r lo way g _ isAsync
    exact finds_bind (finds_keep (by simp) harrow) fun body => reads_arrowResult
  split
  · next hasync =>
      obtain ⟨asyncStart, rfl⟩ := Option.isSome_iff_exists.mp hasync
      obtain ⟨front, rfl⟩ := hstart asyncStart rfl
      refine finds_bind (reads_parenValues items) fun values => finds_pure_of fun h => ?_
      exact Reading.Past.call false (by simpa using h)
  · refine finds_bind (reads_plainValues items) fun values => ?_
    split
    · exact finds_failAt
    · exact finds_pure (by simp)
    · exact finds_pure (by simp)

/-- Without that word, parentheses are no call. -/
theorem reads_parenthesis {canBeArrow : Bool} :
    ⦃r.past lo way⦄ parenOrArrow g canBeArrow none ⦃r.reads lo way⦄ :=
  reads_parenOrArrow fun _ h => nomatch h

/-- With it, they may be one, and its mark is forgotten. -/
theorem reads_asyncParenthesis {canBeArrow : Bool} {start : Nat} :
    ⦃r.past lo (r.marked way start)⦄ parenOrArrow g canBeArrow (some start) ⦃r.reads lo way⦄ :=
  reads_of_marked (reads_parenOrArrow fun _ h => ⟨way, by rw [Option.some.inj h]⟩)

/-- An asynchronous arrow function behind type parameters has the stops of its body. -/
theorem reads_genericAsyncArrow : ⦃r.past lo way⦄ genericAsyncArrow g ⦃r.reads lo way⦄ := by
  refine reads_optionally (finds_bind passes_advance fun _ => ?_)
  refine finds_bind passes_typeParameters fun _ => finds_bind passes_expect fun _ => ?_
  refine finds_bind passes_parameters fun _ => finds_bind passes_expect fun _ => ?_
  refine finds_bind passes_atPunct fun _ => finds_when passes_predicateAnnotation ?_
  refine finds_bind passes_expect fun _ => finds_bind reads_arrowBody fun body => ?_
  exact finds_pure (by simp)

/-- A name has no stops, and as a parameter it stands before the body of an arrow function. -/
theorem reads_afterName {word : String} {canBeArrow : Bool} :
    ⦃r.past lo way⦄ afterName g word canBeArrow ⦃r.reads lo way⦄ := by
  unfold afterName
  refine finds_bind passes_onNewLine fun _ => ?_
  split
  · exact finds_pure (by simp)
  refine finds_bind passes_context fun c => finds_bind passes_peek fun ⟨next, _⟩ => ?_
  refine finds_bind passes_atName fun _ => finds_bind passes_atWord fun _ => ?_
  split
  · refine finds_bind passes_bindingName fun param => finds_bind passes_atPunct fun _ => ?_
    split
    · exact finds_bind Grammar.Ordered.type fun _ => finds_pure (by simp)
    · refine finds_bind passes_expect fun _ => finds_bind reads_arrowBody fun body => ?_
      exact finds_pure (by simp)
  refine finds_bind passes_eat fun _ => ?_
  split
  · exact finds_bind reads_arrowBody fun body => finds_pure (by simp)
  · exact finds_pure (by simp)

/-- An expression that starts with a word is read. The place of the word `async` is marked: it may
be the function of a call. -/
theorem reads_wordExpression {word : String} {canBeArrow : Bool} :
    ⦃r.past lo way⦄ wordExpression g word canBeArrow ⦃r.reads lo way⦄ := by
  refine finds_bind passes_context fun c => ?_
  split
  · exact reads_passing (by simp)
  · exact reads_passing (by simp)
  · exact reads_passing (by simp)
  · exact reads_passing (by simp)
  · refine finds_bind passes_advance fun _ => finds_bind reads_functionAfterWord fun body => ?_
    exact finds_pure (by simp)
  · refine finds_bind passes_advance fun _ => finds_bind reads_classAfterWord fun body => ?_
    exact finds_pure (by simp)
  · refine finds_bind marks_position fun start => finds_bind passes_functionFollows fun _ => ?_
    split
    · refine finds_bind passes_advance fun _ => finds_bind passes_advance fun _ => ?_
      exact finds_bind reads_functionAfterWord fun body => finds_pure (by simp)
    refine finds_bind passes_peek fun ⟨next, lineBreak⟩ => ?_
    dsimp -zeta only
    extract_lets -underBinder plain
    have hplain (u) : ⦃r.past lo (r.marked way start)⦄ plain u ⦃r.reads lo way⦄ := by
      unfold plain
      split
      · exact finds_bind passes_advance fun _ => reads_asyncParenthesis
      · exact finds_bind passes_advance fun _ => finds_keep (by simp) reads_afterName
    clear_value plain
    split
    · exact finds_ifRead reads_genericAsyncArrow (fun _ => finds_pure (by simp)) (hplain ())
    · exact hplain ()
  · split
    · exact finds_bind passes_advance fun _ => reads_afterName
    · exact finds_fail

/-- An expression that no operator binds is read. -/
theorem reads_primary : ⦃r.past lo way⦄ primary g ⦃r.reads lo way⦄ := by
  refine finds_bind passes_context fun c => finds_bind passes_state fun s => ?_
  extract_lets canBeArrow
  clear_value canBeArrow
  split
  · exact reads_wordExpression
  · exact reads_passing (by simp)
  · exact reads_passing (by simp)
  · exact reads_passing (by simp)
  · exact finds_bind reads_templateHoles fun values => finds_pure (by simp)
  · exact reads_parenthesis
  · exact reads_arrayLiteral
  · exact reads_objectLiteral
  · refine finds_bind passes_rereadRegex fun _ => finds_bind passes_token fun _ => ?_
    split
    · exact reads_passing (by simp)
    · exact finds_fail
  · refine finds_bind passes_rereadRegex fun _ => finds_bind passes_token fun _ => ?_
    split
    · exact reads_passing (by simp)
    · exact finds_fail
  · exact finds_bind passes_advance fun _ => finds_bind passes_anyWord fun _ => finds_pure (by simp)
  · exact finds_fail

end StringHarvest.Script
