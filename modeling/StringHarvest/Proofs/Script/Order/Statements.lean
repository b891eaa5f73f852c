import StringHarvest.Proofs.Script.Order.Expressions
import StringHarvest.Script.Parse.Statements

/-!
# Readers in the order of the text: statements

Of the head of a loop nothing is kept, of an `if` the branches but not the test, of a declaration of
types nothing at all. What is read there is passed (`passes_of_reads`) or forgotten (`finds_keep`).
Everything else is read one behind the other.
-/

namespace StringHarvest.Script

open StringHarvest.Script.Parser Std.Do

variable {r : Reading} {lo : Location} {way : List Stop} {g : Grammar} [g.Ordered]

/-! ## Variables -/

/-- A variable has the stops of its initial value. -/
theorem reads_declarator {isConst inHead : Bool} :
    ⦃r.past lo way⦄ declarator g isConst inHead ⦃r.reads lo way⦄ := by
  refine finds_bind passes_position fun start => finds_bind passes_token fun t => ?_
  extract_lets -underBinder isName
  clear_value isName
  refine finds_bind Grammar.Ordered.pattern fun _ => finds_bind passes_typescript fun ts => ?_
  extract_lets -underBinder typed
  suffices htyped : ∀ u, ⦃r.past lo way⦄ typed u ⦃r.reads lo way⦄ by
    clear_value typed
    split
    · have hannotated : ⦃r.past lo way⦄ (do optionalAnnotation g; typed ()) ⦃r.reads lo way⦄ :=
        finds_bind passes_optionalAnnotation htyped
      split
      · exact finds_bind passes_eat fun _ => hannotated
      · exact hannotated
    · exact htyped ()
  intro u
  unfold typed
  refine finds_bind passes_atWord fun _ => finds_bind passes_atWord fun _ => ?_
  split
  · exact finds_pure (by simp)
  refine finds_bind passes_eat fun _ => ?_
  split
  · exact finds_bind Grammar.Ordered.assign fun value => finds_pure (by simp)
  · refine finds_bind passes_context fun c => ?_
    exact finds_when finds_failAt (finds_pure (by simp))

/-- Variables are read one behind the other. -/
theorem reads_declarators {isConst inHead : Bool} :
    ⦃r.past lo way⦄ declarators g isConst inHead ⦃r.reads lo way⦄ := by
  unfold declarators
  refine reads_repeating fun done => finds_bind passes_atPunct fun _ => ?_
  split
  · exact finds_pure (by simp)
  · refine finds_bind reads_declarator fun next => finds_bind passes_eat fun _ => ?_
    split
    · exact finds_pure (by simp)
    · exact finds_pure (by simp)

/-- What does not fit into a statement is passed. -/
theorem passes_skipStatement : ⦃r.past lo way⦄ skipStatement ⦃r.passes lo way⦄ := by
  unfold skipStatement
  refine passes_repeating fun _ => finds_bind passes_eatStatementEnd fun _ => ?_
  split
  · exact passes_pure
  · refine finds_bind passes_advance fun _ => finds_bind passes_token fun _ => ?_
    split
    · exact finds_failAt
    · exact passes_pure

/-- A variable statement has the stops of its variables; what is skipped behind them has none. -/
theorem reads_variableStatement : ⦃r.past lo way⦄ variableStatement g ⦃r.reads lo way⦄ := by
  unfold variableStatement
  refine finds_bind passes_atWord fun isConst => finds_bind passes_advance fun _ => ?_
  refine finds_bind (finds_within reads_declarators) fun initials => ?_
  refine finds_bind passes_eatStatementEnd fun _ => ?_
  split
  · refine finds_bind (passes_of_reads (reads_attempt reads_expression)) fun _ => ?_
    exact finds_bind passes_skipStatement fun _ => finds_pure (by simp)
  · exact finds_pure (by simp)

/-- To look for a `using` declaration is to pass nothing. -/
theorem passes_atUsing : ⦃r.past lo way⦄ atUsing ⦃r.passes lo way⦄ := by
  unfold atUsing
  refine finds_bind passes_context fun c => finds_bind passes_peek fun ⟨next, lineBreak⟩ => ?_
  exact finds_bind passes_atWord fun _ => passes_pure

/-- So it is with an `await` before it. -/
theorem passes_atAwaitUsing : ⦃r.past lo way⦄ atAwaitUsing ⦃r.passes lo way⦄ :=
  passes_lookAhead

/-- A `using` declaration has the stops of its variables. -/
theorem reads_usingStatement : ⦃r.past lo way⦄ usingStatement g ⦃r.reads lo way⦄ := by
  unfold usingStatement
  refine finds_bind passes_eatWord fun _ => finds_bind passes_advance fun _ => ?_
  refine finds_bind reads_declarators fun initials => ?_
  exact finds_bind passes_expectStatementEnd fun _ => finds_pure (by simp)

/-! ## Declarations of types and namespaces -/

/-- An interface is passed. -/
theorem passes_interfaceDeclaration :
    ⦃r.past lo way⦄ interfaceDeclaration g ⦃r.passes lo way⦄ := by
  unfold interfaceDeclaration
  refine finds_bind passes_anyWord fun _ => finds_bind passes_optionalTypeParameters fun _ => ?_
  refine finds_bind passes_eatWord fun _ => finds_when passes_heritageList ?_
  refine finds_bind passes_atWord fun _ => ?_
  refine finds_when (passes_repeating fun _ => ?_) passes_typeMembers
  refine finds_bind passes_atEnd fun _ => finds_bind passes_atPunct fun _ => ?_
  split
  · exact passes_pure
  · exact finds_bind passes_advance fun _ => passes_pure

/-- A type alias is passed. -/
theorem passes_aliasDeclaration :
    ⦃r.past lo way⦄ aliasDeclaration g ⦃r.passes lo way⦄ := by
  unfold aliasDeclaration
  refine finds_bind passes_anyWord fun _ => finds_bind passes_optionalTypeParameters fun _ => ?_
  refine finds_bind passes_eat fun _ => finds_when finds_unexpected ?_
  exact finds_bind Grammar.Ordered.type fun _ => passes_expectStatementEnd

/-- A member of an enumeration is read, but not kept. -/
theorem passes_enumMember : ⦃r.past lo way⦄ enumMember g ⦃r.passes lo way⦄ := by
  unfold enumMember
  refine finds_bind passes_token fun _ => ?_
  extract_lets -underBinder initial
  have hinitial (u) : ⦃r.past lo way⦄ initial u ⦃r.passes lo way⦄ := by
    refine finds_bind passes_eat fun _ => finds_when (passes_of_reads reads_assignIn) ?_
    refine finds_bind passes_eat fun _ => finds_bind passes_atPunct fun _ => ?_
    split
    · exact passes_advance
    · exact passes_pure
  clear_value initial
  split
  · exact finds_bind passes_advance hinitial
  · exact finds_bind passes_advance hinitial
  · refine finds_bind passes_advance fun _ => ?_
    refine finds_bind (passes_of_reads reads_expressionIn) fun _ => ?_
    exact finds_bind passes_expect hinitial
  · exact finds_bind passes_anyWord fun _ => hinitial ()

/-- An enumeration is passed. -/
theorem passes_enumDeclaration : ⦃r.past lo way⦄ enumDeclaration g ⦃r.passes lo way⦄ := by
  unfold enumDeclaration
  refine finds_bind passes_anyWord fun _ => finds_bind passes_expect fun _ => ?_
  refine finds_bind (passes_repeating fun _ => ?_) fun _ => passes_expect
  refine finds_bind passes_atPunct fun _ => ?_
  split
  · exact passes_pure
  · exact finds_bind passes_enumMember fun _ => passes_pure

/-- The items of a namespace are read one behind the other. -/
theorem reads_namespaceItems : ⦃r.past lo way⦄ namespaceItems g ⦃r.reads lo way⦄ := by
  unfold namespaceItems
  refine finds_bind passes_expect fun _ => ?_
  refine reads_repeating fun done => finds_bind passes_eat fun _ => ?_
  split
  · exact finds_pure (by simp)
  refine finds_bind passes_atEnd fun _ => ?_
  split
  · exact finds_pure (by simp)
  · exact finds_bind Grammar.Ordered.item fun next => finds_pure (by simp)

/-- A namespace has the stops of its items. -/
theorem reads_dottedNamespace : ⦃r.past lo way⦄ dottedNamespace g ⦃r.reads lo way⦄ := by
  unfold dottedNamespace
  refine finds_bind passes_anyWord fun _ => finds_bind passes_eat fun _ => ?_
  split
  · exact finds_bind Grammar.Ordered.namespaceBody fun _ => finds_pure (by simp)
  · exact finds_bind reads_namespaceItems fun _ => finds_pure (by simp)

/-- So has a module that is named by a string. -/
theorem reads_ambientModule : ⦃r.past lo way⦄ ambientModule g ⦃r.reads lo way⦄ := by
  unfold ambientModule
  refine finds_bind passes_token fun _ => ?_
  extract_lets -underBinder named
  have hnamed (u) : ⦃r.past lo way⦄ named u ⦃r.reads lo way⦄ := by
    refine finds_bind passes_atPunct fun _ => ?_
    split
    · exact finds_bind reads_namespaceItems fun items => finds_pure (by simp)
    · exact finds_bind passes_expectStatementEnd fun _ => finds_pure (by simp)
  clear_value named
  split
  · exact finds_bind passes_advance hnamed
  · exact finds_bind passes_advance hnamed
  · exact finds_bind finds_unexpected hnamed

/-- The declaration behind a word is a class, a namespace, or one of types, which has no stops. -/
theorem reads_wordDeclaration {word : String} {pass : Bool} :
    ⦃r.past lo way⦄ wordDeclaration g word pass ⦃r.reads lo way⦄ := by
  unfold wordDeclaration
  extract_lets -underBinder step
  have hstep : ⦃r.past lo way⦄ step ⦃r.passes lo way⦄ := by
    unfold step
    split
    · exact passes_advance
    · exact finds_pure (by rfl)
  clear_value step
  split
  · refine finds_bind passes_atWord fun _ => finds_bind passes_onNewLine fun _ => ?_
    split
    · refine finds_bind hstep fun _ => finds_bind passes_expectWord fun _ => ?_
      exact finds_bind reads_classAfterWord fun body => finds_pure (by simp)
    · exact finds_pure (by simp)
  · refine finds_bind passes_atName fun _ => ?_
    split
    · refine finds_bind hstep fun _ => ?_
      exact finds_bind passes_enumDeclaration fun _ => finds_pure (by simp)
    · exact finds_pure (by simp)
  · refine finds_bind passes_atName fun _ => ?_
    split
    · refine finds_bind hstep fun _ => ?_
      exact finds_bind passes_interfaceDeclaration fun _ => finds_pure (by simp)
    · exact finds_pure (by simp)
  · refine finds_bind passes_onNewLine fun _ => ?_
    split
    · exact finds_pure (by simp)
    refine finds_bind hstep fun _ => finds_bind passes_token fun _ => ?_
    split
    · exact finds_bind reads_ambientModule fun body => finds_pure (by simp)
    · refine finds_bind passes_atName fun _ => ?_
      split
      · exact finds_bind Grammar.Ordered.namespaceBody fun body => finds_pure (by simp)
      · exact finds_pure (by simp)
  · refine finds_bind passes_atName fun _ => ?_
    split
    · refine finds_bind hstep fun _ => ?_
      exact finds_bind Grammar.Ordered.namespaceBody fun body => finds_pure (by simp)
    · exact finds_pure (by simp)
  · refine finds_bind passes_onNewLine fun _ => finds_bind passes_atName fun _ => ?_
    split
    · refine finds_bind hstep fun _ => ?_
      exact finds_bind passes_aliasDeclaration fun _ => finds_pure (by simp)
    · exact finds_pure (by simp)
  · exact finds_pure (by simp)

/-- To look for a constant enumeration is to pass nothing. -/
theorem passes_atConstEnum : ⦃r.past lo way⦄ atConstEnum ⦃r.passes lo way⦄ := by
  unfold atConstEnum
  refine finds_bind passes_peek fun ⟨next, _⟩ => finds_bind passes_typescript fun _ => ?_
  exact finds_bind passes_atWord fun _ => passes_pure

/-- A constant enumeration has no stops. -/
theorem reads_constEnum : ⦃r.past lo way⦄ constEnum g ⦃r.reads lo way⦄ := by
  unfold constEnum
  refine finds_bind passes_advance fun _ => finds_bind passes_advance fun _ => ?_
  exact finds_bind passes_enumDeclaration fun _ => finds_pure (by simp)

/-- What follows the word `declare` is read as the declaration that it is. -/
theorem reads_ambientDeclaration :
    ⦃r.past lo way⦄ ambientDeclaration g ⦃r.reads lo way⦄ := by
  refine finds_within (finds_bind passes_token fun t => ?_)
  split
  · refine finds_bind passes_advance fun _ => ?_
    exact finds_bind reads_functionAfterWord fun body => finds_pure (by simp)
  · refine finds_bind passes_advance fun _ => ?_
    exact finds_bind reads_classAfterWord fun body => finds_pure (by simp)
  · refine finds_bind passes_atConstEnum fun _ => ?_
    split
    · exact finds_bind reads_constEnum fun declaration => finds_pure (by simp)
    · exact finds_bind reads_variableStatement fun declaration => finds_pure (by simp)
  · exact finds_bind reads_variableStatement fun declaration => finds_pure (by simp)
  · exact finds_bind reads_variableStatement fun declaration => finds_pure (by simp)
  · exact finds_bind reads_ambientModule fun declaration => finds_pure (by simp)
  · exact reads_wordDeclaration
  · exact finds_pure (by simp)

/-! ## Loops -/

/-- An expression keeps its stops between parentheses. -/
theorem reads_parenthesized : ⦃r.past lo way⦄ parenthesized g ⦃r.reads lo way⦄ := by
  unfold parenthesized
  refine finds_bind passes_expect fun _ => finds_bind reads_expressionIn fun value => ?_
  exact finds_bind passes_expect fun _ => finds_pure (by simp)

/-- The head of a counting loop is read, but not kept. -/
theorem passes_countingHead : ⦃r.past lo way⦄ countingHead g ⦃r.passes lo way⦄ := by
  unfold countingHead
  refine finds_bind passes_eat fun _ => ?_
  extract_lets -underBinder update
  have hupdate (u) : ⦃r.past lo way⦄ update u ⦃r.passes lo way⦄ := by
    refine finds_bind passes_atPunct fun _ => ?_
    exact finds_when (passes_of_reads reads_expressionIn) passes_pure
  clear_value update
  split
  · refine finds_bind (passes_of_reads reads_expressionIn) fun _ => ?_
    exact finds_bind passes_expect hupdate
  · exact hupdate ()

/-- So is what follows `in` or `of`. -/
theorem passes_eachHead : ⦃r.past lo way⦄ eachHead g ⦃r.passes lo way⦄ := by
  unfold eachHead
  refine finds_bind passes_eatWord fun _ => ?_
  split
  · exact finds_bind (passes_of_reads reads_assignIn) fun _ => passes_pure
  · refine finds_bind passes_advance fun _ => ?_
    exact finds_bind (passes_of_reads reads_expressionIn) fun _ => passes_pure

/-- To look for `in` or `of` is to pass nothing. -/
theorem passes_atEach : ⦃r.past lo way⦄ atEach ⦃r.passes lo way⦄ := by
  unfold atEach
  exact finds_bind passes_atWord fun _ => finds_bind passes_atWord fun _ => passes_pure

/-- The variable of a `using` loop is passed, if this is one. -/
theorem passes_usingHead : ⦃r.past lo way⦄ forHead.usingHead ⦃r.passes lo way⦄ := by
  refine finds_bind (passes_optionally ?_) fun found => finds_pure (by rfl)
  refine finds_bind passes_eatWord fun _ => finds_bind passes_advance fun _ => ?_
  refine finds_bind passes_atWord fun _ => ?_
  split
  · exact passes_pure
  refine finds_bind passes_bindingName fun _ => finds_bind passes_atEach fun _ => ?_
  split
  · exact passes_pure
  · exact passes_pure

/-- The variables of a loop are read one behind the other. -/
theorem reads_forVariables {isConst : Bool} :
    ⦃r.past lo way⦄ forHead.forVariables g isConst ⦃r.reads lo way⦄ :=
  finds_within reads_declarators

/-- The head of a loop is read, but not kept: neither its variables nor its expressions. -/
theorem passes_forHead : ⦃r.past lo way⦄ forHead g ⦃r.passes lo way⦄ := by
  unfold forHead
  refine finds_bind passes_peek fun ⟨next, _⟩ => finds_bind passes_atWord fun _ => ?_
  refine finds_bind passes_atWord fun _ => finds_bind passes_atWord fun _ => ?_
  split
  · refine finds_bind passes_atWord fun isVar => finds_bind passes_atWord fun isConst => ?_
    refine finds_bind passes_advance fun _ => ?_
    refine finds_bind (passes_of_reads (finds_within reads_forVariables)) fun _ => ?_
    refine finds_bind passes_atEach fun _ => ?_
    split
    · exact passes_eachHead
    · exact finds_bind passes_expect fun _ => passes_countingHead
  refine finds_bind passes_eat fun _ => ?_
  split
  · exact passes_countingHead
  refine finds_bind passes_atUsing fun _ => finds_bind passes_atAwaitUsing fun _ => ?_
  extract_lets -underBinder plain
  have hplain (u) : ⦃r.past lo way⦄ plain u ⦃r.passes lo way⦄ := by
    refine finds_bind (passes_of_reads (finds_within reads_expression)) fun first => ?_
    refine finds_bind passes_atEach fun _ => ?_
    split
    · split
      · split
        · exact finds_bind finds_failAt fun _ => passes_eachHead
        · exact passes_eachHead
      · exact passes_eachHead
    · exact finds_bind passes_expect fun _ => passes_countingHead
  clear_value plain
  split
  · refine finds_bind passes_usingHead fun _ => ?_
    split
    · exact passes_eachHead
    · exact hplain ()
  · exact hplain ()

/-! ## Statements -/

/-- A clause has the stops of its block, if what stands before the block is passed. -/
theorem reads_clause {word : String} {head : Parser Unit}
    (hhead : ⦃r.past lo way⦄ head ⦃r.passes lo way⦄) :
    ⦃r.past lo way⦄ clause g word head ⦃r.reads lo way⦄ := by
  unfold clause
  refine finds_bind passes_eatWord fun _ => ?_
  split
  · exact finds_bind hhead fun _ => finds_bind reads_block fun _ => finds_pure (by simp)
  · exact finds_pure (by simp)

/-- The variable of a `catch` clause is passed. -/
theorem passes_catchHead : ⦃r.past lo way⦄ catchHead g ⦃r.passes lo way⦄ := by
  unfold catchHead
  refine finds_bind passes_eat fun _ => ?_
  split
  · refine finds_bind Grammar.Ordered.pattern fun _ => ?_
    exact finds_bind passes_optionalAnnotation fun _ => passes_expect
  · exact passes_pure

/-- A `catch` clause has the stops of its block. -/
theorem reads_catchClause :
    ⦃r.past lo way⦄ clause g "catch" (catchHead g) ⦃r.reads lo way⦄ :=
  reads_clause passes_catchHead

/-- So has a `finally` clause. -/
theorem reads_finallyClause :
    ⦃r.past lo way⦄ clause g "finally" (pure ()) ⦃r.reads lo way⦄ :=
  reads_clause (finds_pure (by rfl))

/-- A case has the stops of its test and, behind them, those of its statements. -/
theorem reads_switchCases : ⦃r.past lo way⦄ switchCases g ⦃r.reads lo way⦄ := by
  refine reads_repeating fun done => ?_
  refine finds_bind passes_atWord fun isCase => finds_bind passes_atWord fun isDefault => ?_
  split
  · refine finds_bind passes_advance fun _ => ?_
    extract_lets -underBinder tested
    suffices htested : ∀ test, ⦃r.past lo (way ++ r.stops done.reverse ++ r.stops test)⦄ tested test
        ⦃r.collects lo way⦄ by
      clear_value tested
      split
      · exact finds_bind reads_expressionIn fun test => finds_given (htested (some test))
      · exact finds_given (finds_keep (by simp) (htested none))
    intro test
    refine finds_bind passes_expect fun _ => finds_bind (reads_repeating fun before => ?_) ?_
    · refine finds_bind passes_atEnd fun _ => finds_bind passes_atWord fun _ => ?_
      refine finds_bind passes_atWord fun _ => finds_bind passes_atPunct fun _ => ?_
      split
      · exact finds_pure (by simp)
      · exact finds_bind Grammar.Ordered.statement fun next => finds_pure (by simp)
    · exact fun consequent => finds_pure (by simp)
  · exact finds_pure (by simp)

/-- Both branches are read one behind the other. The calls in the test are forgotten. -/
theorem reads_ifStatement : ⦃r.past lo way⦄ ifStatement g ⦃r.reads lo way⦄ := by
  unfold ifStatement
  refine finds_bind (passes_of_reads reads_parenthesized) fun test => ?_
  refine finds_bind Grammar.Ordered.statement fun consequent => ?_
  refine finds_bind passes_eatWord fun _ => ?_
  extract_lets -underBinder whole
  have hwhole (alternate) : ⦃r.past lo (way ++ r.stops consequent ++ r.stops alternate)⦄
      whole alternate ⦃r.reads lo way⦄ := finds_pure (by simp)
  clear_value whole
  split
  · refine finds_bind Grammar.Ordered.statement fun alternate => ?_
    exact finds_given (hwhole (some alternate))
  · exact finds_given (finds_keep (by simp) (hwhole none))

/-- The target of a jump is passed. -/
theorem passes_jumpEnd : ⦃r.past lo way⦄ jumpEnd ⦃r.passes lo way⦄ := by
  unfold jumpEnd
  refine finds_bind passes_eatStatementEnd fun _ => ?_
  split
  · exact finds_bind passes_bindingName fun _ => passes_expectStatementEnd
  · exact passes_pure

/-- A statement that starts with a word of its own has the stops of its parts, one behind the other.
What is tried and dropped, as a `catch` without a `try`, has none. -/
theorem reads_keywordStatement {word : String} :
    ⦃r.past lo way⦄ keywordStatement g word ⦃r.reads lo way⦄ := by
  unfold keywordStatement
  split
  · exact finds_bind passes_advance fun _ => finds_bind passes_jumpEnd fun _ => finds_pure (by simp)
  · exact finds_bind passes_advance fun _ => finds_bind passes_jumpEnd fun _ => finds_pure (by simp)
  · refine finds_bind passes_advance fun _ => ?_
    exact finds_bind passes_expectStatementEnd fun _ => finds_pure (by simp)
  · refine finds_bind passes_advance fun _ => ?_
    refine finds_bind Grammar.Ordered.statement fun body => finds_bind passes_expectWord fun _ => ?_
    refine finds_bind (passes_of_reads reads_parenthesized) fun _ => ?_
    exact finds_bind passes_eatStatementEnd fun _ => finds_pure (by simp)
  · refine finds_bind passes_advance fun _ => finds_bind passes_eatWord fun _ => ?_
    refine finds_bind passes_expect fun _ => finds_bind passes_forHead fun kind => ?_
    refine finds_bind passes_expect fun _ => ?_
    exact finds_bind Grammar.Ordered.statement fun body => finds_pure (by simp)
  · refine finds_bind passes_advance fun _ => finds_bind reads_ifStatement fun _ => ?_
    exact finds_pure (by simp)
  · refine finds_bind passes_advance fun _ => finds_bind passes_atStatementEnd fun _ => ?_
    split
    · exact finds_bind passes_eatStatementEnd fun _ => finds_pure (by simp)
    · refine finds_bind reads_expressionIn fun value => ?_
      exact finds_bind passes_expectStatementEnd fun _ => finds_pure (by simp)
  · refine finds_bind passes_advance fun _ => finds_bind reads_parenthesized fun subject => ?_
    refine finds_bind passes_expect fun _ => finds_bind reads_switchCases fun cases => ?_
    exact finds_bind passes_expect fun _ => finds_pure (by simp)
  · refine finds_bind passes_advance fun _ => finds_bind passes_onNewLine fun _ => ?_
    refine finds_when finds_fail (finds_bind reads_expressionIn fun value => ?_)
    exact finds_bind passes_expectStatementEnd fun _ => finds_pure (by simp)
  · refine finds_bind passes_advance fun _ => finds_bind reads_block fun body => ?_
    refine finds_bind reads_catchClause fun handler => ?_
    exact finds_bind reads_finallyClause fun finalizer => finds_pure (by simp)
  · refine finds_bind (passes_of_reads (reads_attempt reads_catchClause)) fun _ => ?_
    refine finds_bind (passes_of_reads (reads_attempt reads_finallyClause)) fun _ => ?_
    exact finds_pure (by simp)
  · refine finds_bind (passes_of_reads (reads_attempt reads_finallyClause)) fun _ => ?_
    exact finds_pure (by simp)
  · refine finds_bind passes_advance fun _ => ?_
    refine finds_bind (passes_of_reads reads_parenthesized) fun _ => ?_
    exact finds_bind Grammar.Ordered.statement fun body => finds_pure (by simp)
  · refine finds_bind passes_advance fun _ => ?_
    refine finds_bind (passes_of_reads reads_parenthesized) fun _ => ?_
    exact finds_bind Grammar.Ordered.statement fun body => finds_pure (by simp)
  · exact finds_pure (by simp)

/-- The declaration that starts at a word is read. Where none does, nothing is passed. -/
theorem reads_declarationStatement {word : String} {declarations : Bool} :
    ⦃r.past lo way⦄ declarationStatement g word declarations ⦃r.reads lo way⦄ := by
  refine finds_bind passes_typescript fun ts => finds_bind passes_peek fun ⟨next, lineBreak⟩ => ?_
  dsimp only
  split
  · refine finds_bind passes_advance fun _ => ?_
    exact finds_bind reads_functionAfterWord fun body => finds_pure (by simp)
  · refine finds_bind passes_advance fun _ => ?_
    exact finds_bind reads_classAfterWord fun body => finds_pure (by simp)
  · refine finds_bind passes_atConstEnum fun _ => ?_
    split
    · exact finds_bind reads_constEnum fun declaration => finds_pure (by simp)
    split
    · exact finds_bind reads_variableStatement fun declaration => finds_pure (by simp)
    · exact finds_pure (by simp)
  · exact finds_bind reads_variableStatement fun declaration => finds_pure (by simp)
  · split
    · exact finds_bind reads_variableStatement fun declaration => finds_pure (by simp)
    · exact finds_pure (by simp)
  · refine finds_bind passes_atUsing fun _ => ?_
    split
    · exact finds_bind reads_usingStatement fun declaration => finds_pure (by simp)
    · exact finds_pure (by simp)
  · refine finds_bind passes_atAwaitUsing fun _ => ?_
    split
    · exact finds_bind reads_usingStatement fun declaration => finds_pure (by simp)
    · exact finds_pure (by simp)
  · split
    · refine finds_bind passes_advance fun _ => ?_
      exact finds_bind passes_interfaceDeclaration fun _ => finds_pure (by simp)
    · exact finds_pure (by simp)
  · split
    · refine finds_bind passes_advance fun _ => ?_
      exact finds_bind passes_aliasDeclaration fun _ => finds_pure (by simp)
    · exact finds_pure (by simp)
  · split
    · refine finds_bind passes_advance fun _ => ?_
      exact finds_bind passes_enumDeclaration fun _ => finds_pure (by simp)
    · exact finds_pure (by simp)
  · refine finds_bind passes_functionFollows fun _ => ?_
    split
    · refine finds_bind passes_advance fun _ => finds_bind passes_advance fun _ => ?_
      exact finds_bind reads_functionAfterWord fun body => finds_pure (by simp)
    · exact finds_pure (by simp)
  · exact finds_pure (by simp)

/-- A statement that starts with an expression is read. Where the expression is a word that turns
out to introduce something else, it is a name and has no stops. -/
theorem reads_expressionStatement :
    ⦃r.past lo way⦄ expressionStatement g ⦃r.reads lo way⦄ := by
  refine finds_bind reads_expressionIn fun value => finds_bind passes_typescript fun ts => ?_
  extract_lets -underBinder plain
  have hplain (u) : ⦃r.past lo (way ++ r.stops value)⦄ plain u ⦃r.reads lo way⦄ := by
    refine finds_bind passes_eatStatementEnd fun _ => ?_
    split
    · exact finds_pure (by simp)
    refine finds_bind passes_token fun _ => ?_
    split
    · exact finds_bind Grammar.Ordered.binaryTail fun _ => finds_pure (by simp)
    · exact finds_fail
  clear_value plain
  split
  · refine finds_bind passes_eat fun _ => ?_
    split
    · refine finds_bind passes_eatWord fun _ => ?_
      split
      · exact finds_bind reads_functionAfterWord fun body => finds_pure (by simp)
      · exact finds_bind Grammar.Ordered.statement fun body => finds_pure (by simp)
    refine finds_bind passes_onNewLine fun _ => ?_
    split
    · exact finds_bind passes_eatStatementEnd fun _ => finds_pure (by simp)
    split
    · split
      · exact finds_ifRead reads_ambientDeclaration (fun _ => finds_pure (by simp)) (hplain ())
      refine finds_bind passes_atPunct fun _ => ?_
      split
      · exact finds_bind reads_namespaceItems fun items => finds_pure (by simp)
      · exact finds_ifRead reads_wordDeclaration (fun _ => finds_pure (by simp)) (hplain ())
    · exact hplain ()
  · exact hplain ()

/-- A statement that awaits has the stops of its expression. -/
theorem reads_awaitStatement : ⦃r.past lo way⦄ awaitStatement g ⦃r.reads lo way⦄ := by
  unfold awaitStatement
  refine finds_behind (finds_within ?_) fun value => ?_
  · exact finds_bind reads_awaitExpression fun awaited => Grammar.Ordered.binaryTail
  · exact finds_bind passes_eatStatementEnd fun _ => finds_pure (by simp)

/-- So has an import where a statement is wanted. -/
theorem reads_importStatement : ⦃r.past lo way⦄ importStatement g ⦃r.reads lo way⦄ := by
  unfold importStatement
  refine finds_bind passes_peek fun ⟨next, _⟩ => ?_
  dsimp only
  split
  · refine finds_bind reads_expression fun value => ?_
    exact finds_bind passes_eatStatementEnd fun _ => finds_pure (by simp)
  · exact finds_fail

/-- A statement is read: a block, one that starts with a word of its own, a declaration, or an
expression. -/
theorem reads_statement {declarations topLevel : Bool} :
    ⦃r.past lo way⦄ statement g declarations topLevel ⦃r.reads lo way⦄ := by
  refine finds_within (finds_bind passes_token fun t => ?_)
  split
  · exact finds_bind reads_block fun statements => finds_pure (by simp)
  · exact finds_bind passes_advance fun _ => finds_pure (by simp)
  · split
    · exact reads_importStatement
    refine finds_when finds_fail (finds_bind reads_keywordStatement fun found => ?_)
    split
    · exact finds_pure (by simp)
    refine finds_keep (List.sublist_append_left way _) ?_
    refine finds_bind reads_declarationStatement fun found => ?_
    split
    · exact finds_pure (by simp)
    split
    · exact finds_keep (by simp) reads_awaitStatement
    · exact finds_keep (by simp) reads_expressionStatement
  · exact reads_expressionStatement

end StringHarvest.Script
