import StringHarvest.Proofs.Script.Order.Statements
import StringHarvest.Proofs.Script.Order.Markup
import StringHarvest.Script.Parse.Modules

/-!
# Readers in the order of the text: modules

What passes between modules has no stops: names, specifiers, attributes. An export has the stops of
its declaration or of its value. An export list is read twice, the second time from a state that was
kept (`finds_state`); in the end reading goes on from where the first time ended.
-/

namespace StringHarvest.Script

open StringHarvest.Script.Parser Std.Do

variable {r : Reading} {lo : Location} {way : List Stop} {g : Grammar} [g.Ordered]

/-- The attributes of an import are read, but not kept. -/
theorem passes_moduleAttributes :
    ⦃r.past lo way⦄ moduleAttributes g ⦃r.passes lo way⦄ := by
  unfold moduleAttributes
  refine finds_bind passes_atWord fun _ => finds_bind passes_atWord fun _ => ?_
  refine finds_bind passes_onNewLine fun _ => ?_
  split
  · refine finds_bind passes_advance fun _ => finds_bind passes_atPunct fun _ => ?_
    refine finds_when finds_unexpected ?_
    exact finds_bind (passes_of_reads reads_objectLiteral) fun _ => passes_pure
  · exact passes_pure

/-- The name of a module is passed. -/
theorem passes_moduleName : ⦃r.past lo way⦄ moduleName g ⦃r.passes lo way⦄ := by
  unfold moduleName
  refine finds_bind passes_token fun _ => ?_
  extract_lets -underBinder named
  have hnamed (u) : ⦃r.past lo way⦄ named u ⦃r.passes lo way⦄ :=
    finds_bind passes_moduleAttributes fun _ => passes_expectStatementEnd
  clear_value named
  split
  · exact finds_bind passes_advance hnamed
  · exact finds_bind finds_unexpected hnamed

/-- So is the clause that gives it. -/
theorem passes_fromClause : ⦃r.past lo way⦄ fromClause g ⦃r.passes lo way⦄ := by
  unfold fromClause
  exact finds_bind passes_expectWord fun _ => passes_moduleName

/-- Specifiers are passed if each of them is. -/
theorem passes_specifiers {one : Parser Unit} (hone : ⦃r.past lo way⦄ one ⦃r.passes lo way⦄) :
    ⦃r.past lo way⦄ specifiers one ⦃r.passes lo way⦄ := by
  unfold specifiers
  refine finds_bind (passes_repeating fun _ => ?_) fun _ => passes_expect
  refine finds_bind passes_atPunct fun _ => ?_
  split
  · exact passes_pure
  · refine finds_bind hone fun _ => finds_bind passes_atPunct fun _ => ?_
    exact finds_when passes_expect passes_pure

/-- What an import alias stands for is passed. -/
theorem passes_aliasedModule : ⦃r.past lo way⦄ aliasedModule ⦃r.passes lo way⦄ := by
  unfold aliasedModule
  refine finds_bind passes_peek fun ⟨next, _⟩ => finds_bind passes_atWord fun _ => ?_
  split
  · refine finds_bind passes_advance fun _ => finds_bind passes_advance fun _ => ?_
    refine finds_bind passes_token fun _ => ?_
    extract_lets -underBinder closing
    have hclosing (u) : ⦃r.past lo way⦄ closing u ⦃r.passes lo way⦄ :=
      finds_bind passes_expect fun _ => passes_expectStatementEnd
    clear_value closing
    split
    · exact finds_bind passes_advance hclosing
    · exact finds_bind finds_unexpected hclosing
  · refine finds_bind passes_atAnyWord fun _ => finds_when finds_fail ?_
    exact finds_bind passes_entityName fun _ => passes_expectStatementEnd

/-- Another name of a specifier is passed, if there is one. -/
theorem passes_renamed : ⦃r.past lo way⦄ renamed ⦃r.passes lo way⦄ := by
  unfold renamed
  refine finds_bind passes_eatWord fun _ => ?_
  split
  · exact finds_bind passes_bindingName fun _ => passes_pure
  · exact passes_pure

/-- The end of an import specifier is passed. -/
theorem passes_importBinding {word : String} {start : Nat} :
    ⦃r.past lo way⦄ importBinding word start ⦃r.passes lo way⦄ := by
  unfold importBinding
  refine finds_bind passes_renamed fun _ => ?_
  split
  · exact finds_failAt
  · exact passes_pure

/-- An import specifier is passed. -/
theorem passes_importSpecifier : ⦃r.past lo way⦄ importSpecifier ⦃r.passes lo way⦄ := by
  unfold importSpecifier
  refine finds_bind passes_typescript fun ts => finds_bind passes_position fun start => ?_
  refine finds_bind passes_token fun _ => ?_
  split
  · refine finds_bind passes_advance fun _ => finds_bind passes_renamed fun _ => ?_
    split
    · exact finds_failAt
    · exact passes_pure
  · refine finds_bind passes_advance fun _ => finds_bind passes_atAnyWord fun _ => ?_
    split
    · exact passes_importBinding
    refine finds_bind passes_eatWord fun _ => ?_
    split
    · refine finds_bind passes_position fun start => finds_bind passes_anyWord fun _ => ?_
      exact passes_importBinding
    refine finds_bind passes_atAnyWord fun _ => ?_
    split
    · refine finds_bind passes_bindingName fun name => finds_bind passes_atAnyWord fun _ => ?_
      split
      · exact finds_bind passes_bindingName fun _ => passes_pure
      · exact passes_pure
    · exact passes_pure
  · exact finds_fail

/-- To look for a list of imported types is to pass nothing. -/
theorem passes_atTypeImport : ⦃r.past lo way⦄ atTypeImport ⦃r.passes lo way⦄ := by
  unfold atTypeImport
  refine finds_bind passes_peek fun ⟨next, _⟩ => finds_bind passes_typescript fun _ => ?_
  refine finds_bind passes_atWord fun _ => ?_
  split
  · exact passes_pure
  split
  · exact passes_pure
  · exact passes_pure
  · exact passes_lookAhead
  · exact passes_pure
  · exact passes_pure

/-- To look for the phase of an import is to pass nothing. -/
theorem passes_atPhase {word : String} :
    ⦃r.past lo way⦄ atPhase word ⦃r.passes lo way⦄ := by
  unfold atPhase
  refine finds_bind passes_peek fun ⟨next, _⟩ => finds_bind passes_atWord fun _ => ?_
  split
  · exact passes_pure
  split
  · exact passes_pure
  · exact passes_lookAhead
  · exact passes_pure
  · exact passes_pure

/-- What an import binds is passed. -/
theorem passes_importedNames : ⦃r.past lo way⦄ importedNames ⦃r.passes lo way⦄ := by
  unfold importedNames
  refine finds_bind passes_eat fun _ => ?_
  split
  · exact finds_bind passes_expectWord fun _ => finds_bind passes_bindingName fun _ => passes_pure
  refine finds_bind passes_eat fun _ => ?_
  split
  · exact passes_specifiers passes_importSpecifier
  · exact passes_pure

/-- An import has no stops. -/
theorem reads_importDeclaration :
    ⦃r.past lo way⦄ importDeclaration g ⦃r.reads lo way⦄ := by
  unfold importDeclaration
  have hfrom : ⦃r.past lo way⦄ (do fromClause g; return .imports : Parser Item) ⦃r.reads lo way⦄ :=
    finds_bind passes_fromClause fun _ => finds_pure (by simp)
  refine finds_bind passes_token fun _ => ?_
  split
  · exact finds_bind passes_moduleName fun _ => finds_pure (by simp)
  refine finds_bind passes_atTypeImport fun _ => finds_bind passes_atPhase fun _ => ?_
  refine finds_bind passes_atPhase fun _ => finds_when passes_advance ?_
  refine finds_bind passes_atName fun _ => ?_
  split
  · refine finds_bind passes_bindingName fun _ => finds_bind passes_typescript fun _ => ?_
    refine finds_bind passes_eat fun _ => ?_
    split
    · exact finds_bind passes_aliasedModule fun _ => finds_pure (by simp)
    refine finds_bind passes_atWord fun _ => ?_
    split
    · exact finds_bind passes_expect fun _ => finds_bind passes_importedNames fun _ => hfrom
    · exact hfrom
  · exact finds_bind passes_importedNames fun _ => hfrom

/-- One side of an export specifier is passed. -/
theorem passes_exportedName : ⦃r.past lo way⦄ exportedName ⦃r.passes lo way⦄ := by
  unfold exportedName
  refine finds_bind passes_token fun _ => ?_
  split
  · exact passes_advance
  · exact finds_bind passes_anyWord fun _ => passes_pure

/-- The name under which something is exported is passed. -/
theorem passes_exportedAs :
    ⦃r.past lo way⦄ exportSpecifier.exportedAs ⦃r.passes lo way⦄ := by
  unfold exportSpecifier.exportedAs
  refine finds_bind passes_eatWord fun _ => ?_
  split
  · exact passes_exportedName
  · exact passes_pure

/-- An export specifier is passed. -/
theorem passes_exportSpecifier : ⦃r.past lo way⦄ exportSpecifier ⦃r.passes lo way⦄ := by
  unfold exportSpecifier
  refine finds_bind passes_typescript fun _ => finds_bind passes_atWord fun _ => ?_
  extract_lets isType
  refine finds_bind passes_exportedName fun _ => finds_bind passes_atAnyWord fun _ => ?_
  split
  · exact passes_exportedAs
  refine finds_bind passes_eatWord fun _ => ?_
  split
  · exact finds_bind passes_anyWord fun _ => passes_exportedAs
  refine finds_bind passes_atAnyWord fun _ => ?_
  split
  · refine finds_bind passes_anyWord fun name => finds_bind passes_atAnyWord fun _ => ?_
    split
    · exact finds_bind passes_anyWord fun _ => passes_pure
    · exact passes_pure
  · exact passes_pure

/-- A default export has the stops of its class, its function or its value. -/
theorem reads_exportDefault : ⦃r.past lo way⦄ exportDefault g ⦃r.reads lo way⦄ := by
  refine finds_bind passes_typescript fun ts => finds_bind passes_peek fun ⟨next, lineBreak⟩ => ?_
  refine finds_bind passes_token fun t => ?_
  extract_lets -underBinder plain
  have hplain (u) : ⦃r.past lo way⦄ plain u ⦃r.reads lo way⦄ := by
    refine finds_bind reads_assignIn fun value => ?_
    exact finds_bind passes_expectStatementEnd fun _ => finds_pure (by simp)
  clear_value plain
  split
  · split
    · refine finds_bind passes_advance fun _ => finds_bind passes_advance fun _ => ?_
      exact finds_bind reads_classAfterWord fun body => finds_pure (by simp)
    · exact hplain ()
  · split
    · refine finds_bind passes_advance fun _ => ?_
      exact finds_bind passes_interfaceDeclaration fun _ => finds_pure (by simp)
    · exact hplain ()
  · refine finds_bind passes_advance fun _ => ?_
    exact finds_bind reads_classAfterWord fun body => finds_pure (by simp)
  · split
    · refine finds_bind passes_advance fun _ => finds_bind passes_advance fun _ => ?_
      exact finds_bind reads_functionAfterWord fun body => finds_pure (by simp)
    · exact hplain ()
  · refine finds_bind passes_advance fun _ => ?_
    exact finds_bind reads_functionAfterWord fun body => finds_pure (by simp)
  · exact hplain ()

/-- An exported declaration is read, if one stands here. -/
theorem reads_exportedDeclaration :
    ⦃r.past lo way⦄ exportedDeclaration g ⦃r.reads lo way⦄ := by
  refine finds_bind passes_peek fun ⟨next, lineBreak⟩ => finds_bind passes_token fun t => ?_
  split
  · refine finds_bind passes_advance fun _ => ?_
    exact finds_bind reads_classAfterWord fun body => finds_pure (by simp)
  · split
    · refine finds_bind passes_advance fun _ => finds_bind passes_advance fun _ => ?_
      exact finds_bind reads_functionAfterWord fun body => finds_pure (by simp)
    · exact finds_pure (by simp)
  · refine finds_bind passes_advance fun _ => ?_
    exact finds_bind reads_functionAfterWord fun body => finds_pure (by simp)
  · refine finds_bind passes_atConstEnum fun _ => ?_
    split
    · exact finds_bind reads_constEnum fun declaration => finds_pure (by simp)
    · exact finds_bind reads_variableStatement fun declaration => finds_pure (by simp)
  · exact finds_bind reads_variableStatement fun declaration => finds_pure (by simp)
  · split
    · exact finds_bind reads_variableStatement fun declaration => finds_pure (by simp)
    · exact finds_pure (by simp)
  · exact finds_pure (by simp)

/-- An exported declaration has the stops of the declaration. -/
@[simp] theorem stops_map_exportDecl (declaration : Option Decl) :
    r.stops (declaration.map Item.exportDecl) = r.stops declaration := by
  cases declaration <;> rfl

/-- The exports that only a language with types has are read, if one stands here. -/
theorem reads_typedExport : ⦃r.past lo way⦄ typedExport g ⦃r.reads lo way⦄ := by
  refine finds_bind passes_typescript fun ts => ?_
  split
  · exact finds_pure (by simp)
  refine finds_bind passes_peek fun ⟨next, _⟩ => finds_bind passes_token fun t => ?_
  split
  · refine finds_bind passes_advance fun _ => finds_bind reads_expressionIn fun value => ?_
    exact finds_bind passes_expectStatementEnd fun _ => finds_pure (by simp)
  · refine finds_bind passes_advance fun _ => finds_bind passes_expectWord fun _ => ?_
    refine finds_bind passes_anyWord fun _ => ?_
    exact finds_bind passes_expectStatementEnd fun _ => finds_pure (by simp)
  · refine finds_bind passes_advance fun _ => finds_bind passes_atWord fun _ => ?_
    refine finds_bind passes_atTypeImport fun _ => finds_when passes_advance ?_
    refine finds_bind passes_bindingName fun _ => finds_bind passes_expect fun _ => ?_
    exact finds_bind passes_aliasedModule fun _ => finds_pure (by simp)
  · split
    · refine finds_bind passes_advance fun _ => finds_bind reads_ambientDeclaration fun found => ?_
      split
      · exact finds_pure (by simp)
      · exact finds_pure (by simp)
    · exact finds_pure (by simp)
  · split
    · exact finds_pure (by simp)
    · exact finds_pure (by simp)
    · exact finds_bind (reads_optionally reads_wordDeclaration) fun found => finds_pure (by simp)
  · exact finds_bind (reads_optionally reads_wordDeclaration) fun found => finds_pure (by simp)
  · exact finds_pure (by simp)

/-- A state that is kept is past the same stops. -/
theorem finds_state {α : Type} {q : State → Parser α} {found : α → List Stop}
    (hq : ∀ s, r.Past lo way s → ⦃r.past lo way⦄ q s ⦃r.finds lo found⦄) :
    ⦃r.past lo way⦄ (state >>= q) ⦃r.finds lo found⦄ :=
  triple_iff.mpr fun c s h => triple_iff.mp (hq s h) c s h

/-- To go to a state is to be past the stops that it is past. -/
theorem passes_goto {s : State} (hs : r.Past lo way s) :
    ⦃r.past lo way⦄ goto s ⦃r.passes lo way⦄ :=
  triple_iff.mpr fun _ _ _ => hs

/-- So is to look through the specifiers from there on. -/
theorem passes_stringSpecifier {s : State} (hs : r.Past lo way s) :
    ⦃r.past lo way⦄ stringSpecifier s ⦃r.passes lo way⦄ := by
  refine finds_bind (passes_goto hs) fun _ => passes_repeating fun found => ?_
  refine finds_bind passes_token fun _ => ?_
  split
  · exact finds_bind passes_position fun _ => passes_pure
  · exact finds_bind passes_advance fun _ => finds_bind passes_advance fun _ => passes_pure
  · exact passes_pure
  · exact passes_pure
  · exact finds_bind passes_advance fun _ => passes_pure

/-- An export list has no stops, and reading ends where it ended the first time. -/
theorem reads_exportList : ⦃r.past lo way⦄ exportList g ⦃r.reads lo way⦄ := by
  refine finds_state fun first hfirst => ?_
  refine finds_bind (passes_specifiers passes_exportSpecifier) fun _ => ?_
  refine finds_bind passes_atWord fun isFrom => ?_
  split
  · exact finds_bind passes_fromClause fun _ => finds_pure (by simp)
  refine finds_state fun last hlast => ?_
  refine finds_bind (passes_stringSpecifier hfirst) fun found => ?_
  extract_lets -underBinder valid
  have hvalid (u) : ⦃r.past lo way⦄ valid u ⦃r.reads lo way⦄ := by
    refine finds_bind (passes_goto hlast) fun _ => ?_
    exact finds_bind passes_eatStatementEnd fun _ => finds_pure (by simp)
  clear_value valid
  split
  · exact finds_bind finds_failAt hvalid
  · exact hvalid ()

/-- An export is read: one with types, a default, a declaration or a list. -/
theorem reads_exportDeclaration :
    ⦃r.past lo way⦄ exportDeclaration g ⦃r.reads lo way⦄ := by
  unfold exportDeclaration
  refine finds_bind passes_atEnd fun _ => finds_when finds_fail ?_
  refine finds_bind reads_typedExport fun found => ?_
  split
  · exact finds_pure (by simp)
  refine finds_keep (List.sublist_append_left way _) ?_
  refine finds_bind passes_typescript fun _ => finds_when passes_eatWord ?_
  refine finds_bind passes_eatWord fun _ => ?_
  split
  · exact reads_exportDefault
  refine finds_bind reads_exportedDeclaration fun found => ?_
  split
  · exact finds_pure (by simp)
  refine finds_bind passes_eat fun _ => ?_
  split
  · refine finds_bind passes_eatWord fun _ => finds_when passes_exportedName ?_
    exact finds_bind passes_fromClause fun _ => finds_pure (by simp)
  · exact finds_bind passes_expect fun _ => finds_keep (by simp) reads_exportList

/-- An item of a module is an import, an export or a statement. -/
theorem reads_moduleItem : ⦃r.past lo way⦄ moduleItem g ⦃r.reads lo way⦄ := by
  refine finds_bind passes_token fun t => ?_
  split
  · refine finds_bind passes_peek fun ⟨next, _⟩ => ?_
    dsimp only
    split
    · refine finds_bind (finds_within reads_expression) fun value => ?_
      exact finds_bind passes_eatStatementEnd fun _ => finds_pure (by simp)
    · exact finds_bind passes_advance fun _ => reads_importDeclaration
  · exact finds_bind passes_advance fun _ => reads_exportDeclaration
  · exact finds_bind Grammar.Ordered.statement fun statement => finds_pure (by simp)

end StringHarvest.Script
