import StringHarvest.Proofs.Script.Order.Basic

/-!
# Readers in the order of the text: names, patterns and types

Names, keys, patterns and types leave no stops behind, so here every phrase passes some text
(`Reading.passes`). A proof follows its phrase: one step after the other is `finds_bind`, a step
under a condition is `finds_when`, a choice is `split`, and a loop passes what each of its rounds
passes (`passes_repeating`). Where several branches go on alike, what follows them is named and
settled first. An expression inside a pattern or a type is read, but its stops are dropped with it
(`passes_of_reads`).
-/

namespace StringHarvest.Script

open StringHarvest.Script.Parser Std.Do

variable {r : Reading} {lo : Location} {way : List Stop} {g : Grammar} [g.Ordered]

/-- A modifier is passed, or nothing where none stands. -/
theorem passes_modifier {allowed : List String} {keepStaticBlock : Bool} :
    ⦃r.past lo way⦄ modifier allowed keepStaticBlock ⦃r.passes lo way⦄ := by
  unfold modifier
  refine finds_bind passes_typescript fun _ => ?_
  split
  · exact passes_pure
  refine finds_bind passes_token fun _ => ?_
  split
  · exact finds_fail
  · split
    · exact passes_pure
    refine finds_bind passes_peek fun ⟨next, lineBreak⟩ => ?_
    dsimp only
    split
    · exact passes_pure
    split
    · exact finds_bind passes_advance fun _ => passes_pure
    · exact passes_pure
  · exact passes_pure

/-- So is one before a parameter. -/
theorem passes_eatParameterModifier :
    ⦃r.past lo way⦄ eatParameterModifier ⦃r.passes lo way⦄ := by
  unfold eatParameterModifier
  refine finds_bind passes_typescript fun _ => ?_
  split
  · refine finds_bind passes_token fun _ => ?_
    split
    · split
      · refine finds_bind passes_peek fun ⟨next, _⟩ => ?_
        dsimp only
        split
        · exact finds_bind passes_modifier fun _ => passes_pure
        · exact passes_pure
      · exact passes_pure
    · exact passes_pure
  · exact passes_pure

/-- The key of a member is passed. If it is computed, its expressions are read, but a key is not
kept. -/
theorem passes_key : ⦃r.past lo way⦄ key g ⦃r.passes lo way⦄ := by
  unfold key
  refine finds_bind passes_token fun _ => ?_
  split
  · exact finds_bind passes_advance fun _ => passes_pure
  · exact finds_bind passes_advance fun _ => passes_pure
  · exact finds_bind passes_advance fun _ => passes_pure
  · exact finds_bind passes_advance fun _ => passes_pure
  · refine finds_bind passes_advance fun _ => ?_
    refine finds_bind (passes_of_reads reads_assignIn) fun first => ?_
    refine finds_bind passes_typescript fun _ => finds_bind passes_atPunct fun _ => ?_
    refine finds_choice (passes_repeating fun parts => ?_) passes_pure fun _ => ?_
    · refine finds_bind passes_eat fun _ => ?_
      split
      · exact finds_bind (passes_of_reads reads_assignIn) fun _ => passes_pure
      · exact passes_pure
    · exact finds_bind passes_expect fun _ => passes_pure
  · exact finds_unexpected

/-- A private name is passed with its `#`. -/
theorem passes_privateName : ⦃r.past lo way⦄ privateName ⦃r.passes lo way⦄ := by
  unfold privateName
  exact finds_bind passes_advance fun _ => passes_anyWord

/-- The key of a class member is passed. -/
theorem passes_classKey : ⦃r.past lo way⦄ classKey g ⦃r.passes lo way⦄ := by
  unfold classKey
  refine finds_bind passes_atPunct fun _ => ?_
  split
  · exact finds_bind passes_privateName fun _ => passes_pure
  · exact passes_key

/-- The name of a member is passed. -/
theorem passes_memberName : ⦃r.past lo way⦄ memberName ⦃r.passes lo way⦄ := by
  unfold memberName
  refine finds_bind passes_atPunct fun _ => ?_
  split
  · exact finds_bind passes_privateName fun _ => passes_pure
  · exact finds_bind passes_anyWord fun _ => passes_pure

/-- The name of a member has no stops. -/
theorem reads_memberName : ⦃r.past lo way⦄ memberName ⦃r.reads lo way⦄ := by
  unfold memberName
  refine finds_bind passes_atPunct fun isPrivate => ?_
  split
  · exact finds_bind passes_privateName fun _ => finds_pure (by simp)
  · exact finds_bind passes_anyWord fun _ => finds_pure (by simp)

/-- An annotation is passed, if one stands here. -/
theorem passes_optionalAnnotation :
    ⦃r.past lo way⦄ optionalAnnotation g ⦃r.passes lo way⦄ := by
  unfold optionalAnnotation
  refine finds_bind passes_typescript fun _ => finds_bind passes_eat fun _ => ?_
  split
  · exact Grammar.Ordered.type
  · exact passes_pure

/-- An initial value is read, but not kept. -/
theorem passes_optionalDefault : ⦃r.past lo way⦄ optionalDefault g ⦃r.passes lo way⦄ := by
  unfold optionalDefault
  refine finds_bind passes_eat fun _ => ?_
  split
  · exact finds_bind (passes_of_reads reads_assignIn) fun _ => passes_pure
  · exact passes_pure

/-- The items of an array pattern are patterns. -/
theorem passes_arrayPattern : ⦃r.past lo way⦄ arrayPattern g ⦃r.passes lo way⦄ := by
  unfold arrayPattern
  refine finds_bind passes_advance fun _ => finds_bind ?_ fun _ => passes_expect
  refine passes_repeating fun _ => finds_bind passes_atPunct fun _ => ?_
  split
  · exact passes_pure
  refine finds_bind passes_eat fun _ => ?_
  split
  · exact passes_pure
  refine finds_bind passes_eat fun _ => ?_
  extract_lets -underBinder separator
  have hseparator (u) : ⦃r.past lo way⦄ separator u ⦃r.passes lo way⦄ :=
    finds_bind passes_atPunct fun _ => finds_when passes_expect passes_pure
  clear_value separator
  split
  · exact finds_bind Grammar.Ordered.pattern hseparator
  · refine finds_bind Grammar.Ordered.pattern fun _ => ?_
    exact finds_bind passes_optionalDefault fun _ => hseparator _

/-- A member of an object pattern is a key with a pattern, or a name that is bound. -/
theorem passes_patternMember : ⦃r.past lo way⦄ patternMember g ⦃r.passes lo way⦄ := by
  unfold patternMember
  refine finds_bind passes_eat fun _ => ?_
  split
  · exact Grammar.Ordered.pattern
  refine finds_bind passes_key fun k => finds_bind passes_eat fun _ => ?_
  split
  · refine finds_bind Grammar.Ordered.pattern fun _ => ?_
    exact finds_bind passes_optionalDefault fun _ => passes_pure
  · cases k with
    | name => exact finds_bind passes_optionalDefault fun _ => passes_pure
    | string | number | bigint | privateName | computed => exact finds_unexpected

/-- The members of an object pattern are passed one by one. -/
theorem passes_objectPattern : ⦃r.past lo way⦄ objectPattern g ⦃r.passes lo way⦄ := by
  unfold objectPattern
  refine finds_bind passes_advance fun _ => ?_
  refine passes_repeating fun _ => finds_bind passes_eat fun _ => ?_
  split
  · exact passes_pure
  · refine finds_bind passes_patternMember fun _ => finds_bind passes_atPunct fun _ => ?_
    exact finds_when passes_expect passes_pure

/-- A pattern that binds is passed. -/
theorem passes_bindingPattern : ⦃r.past lo way⦄ bindingPattern g ⦃r.passes lo way⦄ := by
  unfold bindingPattern
  refine finds_bind passes_token fun _ => ?_
  split
  · exact finds_bind passes_bindingName fun _ => passes_pure
  · exact passes_arrayPattern
  · exact passes_objectPattern
  · exact finds_failAt
  · exact finds_unexpected

/-- A parameter is passed. -/
theorem passes_parameter : ⦃r.past lo way⦄ parameter g ⦃r.passes lo way⦄ := by
  unfold parameter
  refine finds_bind passes_eatParameterModifier fun _ => ?_
  refine finds_bind Grammar.Ordered.pattern fun _ => finds_bind passes_optionalDefault fun _ => ?_
  refine finds_bind passes_typescript fun _ => ?_
  extract_lets -underBinder initial
  have hinitial (u) : ⦃r.past lo way⦄ initial u ⦃r.passes lo way⦄ :=
    finds_bind passes_optionalDefault fun _ => passes_pure
  clear_value initial
  split
  · exact finds_bind passes_eat fun _ => finds_bind passes_optionalAnnotation hinitial
  · exact hinitial _

/-- Parameters are passed if each of them is. -/
theorem passes_parametersBy {one : Parser Unit} (hone : ⦃r.past lo way⦄ one ⦃r.passes lo way⦄) :
    ⦃r.past lo way⦄ parametersBy g one ⦃r.passes lo way⦄ := by
  unfold parametersBy
  refine passes_repeating fun _ => finds_bind passes_atPunct fun _ => ?_
  split
  · exact passes_pure
  refine finds_bind passes_eat fun _ => ?_
  extract_lets -underBinder separator
  have hseparator (u) : ⦃r.past lo way⦄ separator u ⦃r.passes lo way⦄ :=
    finds_bind passes_atPunct fun _ => finds_when passes_expect passes_pure
  clear_value separator
  split
  · refine finds_bind Grammar.Ordered.pattern fun _ => ?_
    refine finds_bind passes_optionalDefault fun _ => ?_
    refine finds_bind passes_optionalAnnotation fun _ => ?_
    refine finds_bind passes_typescript fun _ => ?_
    split
    · exact finds_bind passes_eat fun _ => hseparator _
    · exact hseparator _
  · exact finds_bind hone hseparator

/-- The parameters of a function are passed. -/
theorem passes_parameters : ⦃r.past lo way⦄ parameters g ⦃r.passes lo way⦄ := by
  unfold parameters
  exact passes_parametersBy passes_parameter

/-- The parameters of a method may have up to three modifiers each. -/
theorem passes_memberParameters : ⦃r.past lo way⦄ memberParameters g ⦃r.passes lo way⦄ := by
  unfold memberParameters
  refine passes_parametersBy ?_
  refine finds_bind passes_modifier fun _ => finds_bind passes_modifier fun _ => ?_
  exact finds_bind passes_modifier fun _ => passes_parameter

/-- Items between commas are passed if each of them is. -/
theorem passes_delimited {atTerminator : Parser Bool} {one : Parser Unit}
    (hat : ⦃r.past lo way⦄ atTerminator ⦃r.passes lo way⦄)
    (hone : ⦃r.past lo way⦄ one ⦃r.passes lo way⦄) :
    ⦃r.past lo way⦄ delimited atTerminator one ⦃r.passes lo way⦄ := by
  unfold delimited
  refine passes_repeating fun _ => finds_bind hat fun _ => ?_
  split
  · exact passes_pure
  refine finds_bind hone fun _ => finds_bind passes_eat fun _ => ?_
  split
  · exact passes_pure
  refine finds_bind hat fun _ => ?_
  split
  · exact passes_pure
  · exact finds_bind passes_expect fun _ => passes_pure

/-- Type arguments are passed with their angle brackets. -/
theorem passes_typeArguments : ⦃r.past lo way⦄ typeArguments g ⦃r.passes lo way⦄ := by
  unfold typeArguments
  refine finds_bind passes_splitLess fun _ => finds_bind passes_expect fun _ => ?_
  refine finds_bind (passes_delimited passes_atGreater Grammar.Ordered.type) fun _ => ?_
  exact passes_expectGreater

/-- A type after a word is passed, if the word stands here. -/
theorem passes_typeAfterWord {word : String} :
    ⦃r.past lo way⦄ typeAfterWord g word ⦃r.passes lo way⦄ := by
  unfold typeAfterWord
  refine finds_bind passes_eatWord fun _ => ?_
  split
  · exact Grammar.Ordered.type
  · exact passes_pure

/-- A type parameter is passed. -/
theorem passes_typeParameter : ⦃r.past lo way⦄ typeParameter g ⦃r.passes lo way⦄ := by
  unfold typeParameter
  refine finds_bind (passes_repeating fun _ => ?_) fun _ => ?_
  · refine finds_bind passes_modifier fun found => ?_
    cases found <;> exact passes_pure
  · refine finds_bind passes_anyWord fun _ => ?_
    refine finds_bind passes_typeAfterWord fun _ => finds_bind passes_eat fun _ => ?_
    split
    · exact Grammar.Ordered.type
    · exact passes_pure

/-- Type parameters are passed with their angle brackets. -/
theorem passes_typeParameters : ⦃r.past lo way⦄ typeParameters g ⦃r.passes lo way⦄ := by
  unfold typeParameters
  refine finds_bind passes_atPunct fun _ => ?_
  refine finds_when finds_unexpected ?_
  refine finds_bind passes_advance fun _ => ?_
  refine finds_bind (passes_delimited passes_atGreater passes_typeParameter) fun _ => ?_
  exact passes_expectGreater

/-- So they are where they may be missing. -/
theorem passes_optionalTypeParameters :
    ⦃r.past lo way⦄ optionalTypeParameters g ⦃r.passes lo way⦄ := by
  unfold optionalTypeParameters
  refine finds_bind passes_typescript fun _ => finds_bind passes_atPunct fun _ => ?_
  split
  · exact passes_typeParameters
  · exact passes_pure

/-- An annotation with a predicate is passed. -/
theorem passes_predicateAnnotation {mark : Punct} :
    ⦃r.past lo way⦄ predicateAnnotation g mark ⦃r.passes lo way⦄ := by
  unfold predicateAnnotation
  refine finds_bind passes_expect fun _ => finds_bind passes_context fun c => ?_
  refine finds_bind passes_peek fun ⟨next, lineBreak⟩ => finds_bind passes_atWord fun _ => ?_
  refine finds_when passes_advance ?_
  refine finds_bind passes_peek fun ⟨next, lineBreak⟩ => finds_bind passes_atName fun _ => ?_
  extract_lets isPredicate
  split
  · refine finds_bind passes_anyWord fun _ => ?_
    split
    · exact finds_bind passes_advance fun _ => Grammar.Ordered.type
    · exact passes_pure
  · exact Grammar.Ordered.type

/-- A name with dots is passed. -/
theorem passes_entityName : ⦃r.past lo way⦄ entityName ⦃r.passes lo way⦄ := by
  unfold entityName
  refine finds_bind passes_anyWord fun _ => ?_
  refine passes_repeating fun _ => finds_bind passes_eat fun _ => ?_
  split
  · exact finds_bind passes_memberName fun _ => passes_pure
  · exact passes_pure

/-- Type arguments on the same line are passed. -/
theorem passes_adjacentTypeArguments :
    ⦃r.past lo way⦄ adjacentTypeArguments g ⦃r.passes lo way⦄ := by
  unfold adjacentTypeArguments
  refine finds_bind passes_onNewLine fun _ => finds_bind passes_atAny fun _ => ?_
  split
  · exact passes_typeArguments
  · exact passes_pure

/-- The end of a member of an object type is passed. -/
theorem passes_typeMemberEnd : ⦃r.past lo way⦄ typeMemberEnd ⦃r.passes lo way⦄ := by
  unfold typeMemberEnd
  refine finds_bind passes_eat fun _ => ?_
  split
  · exact passes_expectStatementEnd
  · exact passes_pure

/-- The parameters of a signature are passed with their parentheses. -/
theorem passes_signatureParameters :
    ⦃r.past lo way⦄ signatureParameters g ⦃r.passes lo way⦄ := by
  unfold signatureParameters
  exact finds_bind passes_expect fun _ => finds_bind passes_parameters fun _ => passes_expect

/-- A signature is passed. -/
theorem passes_signature : ⦃r.past lo way⦄ signature g ⦃r.passes lo way⦄ := by
  unfold signature
  refine finds_bind passes_optionalTypeParameters fun _ => ?_
  refine finds_bind passes_signatureParameters fun _ => finds_bind passes_atPunct fun _ => ?_
  split
  · exact passes_predicateAnnotation
  · exact passes_pure

/-- The name of a member of an object type is passed; if it is computed, its expression is not kept.
-/
theorem passes_typeMemberName : ⦃r.past lo way⦄ typeMemberName g ⦃r.passes lo way⦄ := by
  unfold typeMemberName
  refine finds_bind passes_token fun _ => ?_
  split
  · refine finds_bind passes_advance fun _ => ?_
    exact finds_bind (passes_of_reads reads_assignIn) fun _ => passes_expect
  · exact passes_advance
  · exact passes_advance
  · exact passes_advance
  · exact finds_bind passes_memberName fun _ => passes_pure

/-- To look for an index signature is to pass nothing. -/
theorem passes_atIndexSignature : ⦃r.past lo way⦄ atIndexSignature ⦃r.passes lo way⦄ := by
  unfold atIndexSignature
  exact passes_lookAhead

/-- An index signature is passed, if one stands here. -/
theorem passes_indexSignature : ⦃r.past lo way⦄ indexSignature g ⦃r.passes lo way⦄ := by
  unfold indexSignature
  refine finds_bind passes_atIndexSignature fun _ => ?_
  split
  · refine finds_bind passes_advance fun _ => finds_bind passes_anyWord fun _ => ?_
    refine finds_bind passes_eat fun _ => finds_when passes_expect ?_
    refine finds_bind Grammar.Ordered.type fun _ => finds_bind passes_expect fun _ => ?_
    refine finds_bind passes_optionalAnnotation fun _ => ?_
    exact finds_bind passes_typeMemberEnd fun _ => passes_pure
  · exact passes_pure

/-- An accessor of an object type is passed, if one stands here. -/
theorem passes_typeAccessor : ⦃r.past lo way⦄ typeAccessor g ⦃r.passes lo way⦄ := by
  unfold typeAccessor
  refine passes_optionally (finds_bind passes_eatWord fun _ => ?_)
  split
  · refine finds_bind passes_typeMemberName fun _ => finds_bind passes_expect fun _ => ?_
    refine finds_bind passes_expect fun _ => finds_bind passes_optionalAnnotation fun _ => ?_
    exact finds_bind passes_typeMemberEnd fun _ => passes_pure
  · refine finds_bind passes_expectWord fun _ => finds_bind passes_typeMemberName fun _ => ?_
    refine finds_bind passes_signatureParameters fun _ => ?_
    exact finds_bind passes_typeMemberEnd fun _ => passes_pure

/-- A member of an object type is passed: a signature, one after `new`, an index signature, an
accessor, or a name with a signature or an annotation. -/
theorem passes_typeMember : ⦃r.past lo way⦄ typeMember g ⦃r.passes lo way⦄ := by
  have hsignature : ⦃r.past lo way⦄ (do signature g; typeMemberEnd) ⦃r.passes lo way⦄ :=
    finds_bind passes_signature fun _ => passes_typeMemberEnd
  unfold typeMember
  refine finds_bind passes_atAny fun _ => ?_
  split
  · exact finds_bind passes_signature fun _ => finds_bind passes_typeMemberEnd fun _ => passes_pure
  refine finds_bind passes_atWord fun _ => ?_
  extract_lets -underBinder member
  have hmember (u) : ⦃r.past lo way⦄ member u ⦃r.passes lo way⦄ := by
    refine finds_bind passes_modifier fun found => finds_bind passes_indexSignature fun _ => ?_
    split
    · exact passes_pure
    extract_lets -underBinder named
    have hnamed (u) : ⦃r.past lo way⦄ named u ⦃r.passes lo way⦄ := by
      refine finds_bind passes_typeMemberName fun _ => finds_bind passes_eat fun _ => ?_
      refine finds_bind passes_atAny fun _ => ?_
      split
      · exact finds_when finds_fail hsignature
      · exact finds_bind passes_optionalAnnotation fun _ => passes_typeMemberEnd
    clear_value named
    split
    · refine finds_bind passes_typeAccessor fun _ => ?_
      split
      · exact passes_pure
      · exact hnamed _
    · exact hnamed _
  clear_value member
  split
  · refine finds_bind passes_peek fun ⟨next, _⟩ => ?_
    dsimp only
    split
    · refine finds_bind passes_advance fun _ => finds_bind passes_signature fun _ => ?_
      exact finds_bind passes_typeMemberEnd fun _ => passes_pure
    · exact hmember _
  · exact hmember _

/-- The members of an object type are passed one by one. -/
theorem passes_typeMembers : ⦃r.past lo way⦄ typeMembers g ⦃r.passes lo way⦄ := by
  unfold typeMembers
  refine finds_bind passes_expect fun _ => finds_bind ?_ fun _ => passes_expect
  refine passes_repeating fun _ => finds_bind passes_atPunct fun _ => ?_
  split
  · exact passes_pure
  · exact finds_bind passes_typeMember fun _ => passes_pure

/-- To look for a mapped type is to pass nothing. -/
theorem passes_atMappedType : ⦃r.past lo way⦄ atMappedType ⦃r.passes lo way⦄ := by
  unfold atMappedType
  exact passes_lookAhead

/-- A sign before a modifier is passed. -/
theorem passes_eatSign : ⦃r.past lo way⦄ eatSign ⦃r.passes lo way⦄ := by
  unfold eatSign
  refine finds_bind passes_atAny fun _ => ?_
  split
  · exact finds_bind passes_advance fun _ => passes_pure
  · exact passes_pure

/-- A mapped type is passed. -/
theorem passes_mappedType : ⦃r.past lo way⦄ mappedType g ⦃r.passes lo way⦄ := by
  unfold mappedType
  refine finds_bind passes_expect fun _ => finds_bind passes_eatSign fun _ => ?_
  extract_lets -underBinder bracket
  have hbracket (u) : ⦃r.past lo way⦄ bracket u ⦃r.passes lo way⦄ := by
    refine finds_bind passes_expect fun _ => finds_bind passes_anyWord fun _ => ?_
    refine finds_bind passes_expectWord fun _ => finds_bind Grammar.Ordered.type fun _ => ?_
    refine finds_bind passes_typeAfterWord fun _ => finds_bind passes_expect fun _ => ?_
    refine finds_bind passes_eatSign fun _ => ?_
    extract_lets -underBinder value
    have hvalue (u) : ⦃r.past lo way⦄ value u ⦃r.passes lo way⦄ := by
      refine finds_bind passes_eat fun _ => finds_when Grammar.Ordered.type ?_
      exact finds_bind passes_expectStatementEnd fun _ => passes_expect
    clear_value value
    split
    · exact finds_bind passes_expect hvalue
    · exact finds_bind passes_eat fun _ => hvalue _
  clear_value bracket
  split
  · exact finds_bind passes_expectWord hbracket
  · exact finds_bind passes_eatWord fun _ => hbracket _

/-- A label of a tuple element is passed, if one stands here. -/
theorem passes_tupleLabel : ⦃r.past lo way⦄ tupleLabel ⦃r.passes lo way⦄ := by
  unfold tupleLabel
  refine passes_optionally (finds_bind passes_anyWord fun _ => ?_)
  exact finds_bind passes_eat fun _ => finds_bind passes_expect fun _ => passes_pure

/-- An element of a tuple type is passed. -/
theorem passes_tupleElement : ⦃r.past lo way⦄ tupleElement g ⦃r.passes lo way⦄ := by
  unfold tupleElement
  refine finds_bind passes_eat fun _ => finds_bind passes_tupleLabel fun _ => ?_
  exact finds_bind Grammar.Ordered.type fun _ => finds_bind passes_eat fun _ => passes_pure

/-- A type taken from a module is passed; the expression behind the name of the module is not kept.
-/
theorem passes_importType : ⦃r.past lo way⦄ importType g ⦃r.passes lo way⦄ := by
  unfold importType
  refine finds_bind passes_expectWord fun _ => finds_bind passes_expect fun _ => ?_
  refine finds_bind passes_token fun _ => ?_
  extract_lets -underBinder options
  have hoptions (u) : ⦃r.past lo way⦄ options u ⦃r.passes lo way⦄ := by
    refine finds_bind passes_eat fun _ => ?_
    extract_lets -underBinder closing
    have hclosing (u) : ⦃r.past lo way⦄ closing u ⦃r.passes lo way⦄ := by
      refine finds_bind passes_expect fun _ => finds_bind passes_eat fun _ => ?_
      exact finds_when passes_entityName passes_adjacentTypeArguments
    clear_value closing
    split
    · refine finds_bind passes_atPunct fun _ => ?_
      split
      · refine finds_bind (passes_of_reads reads_assignIn) fun _ => ?_
        exact finds_bind passes_eat fun _ => hclosing _
      · exact hclosing _
    · exact hclosing _
  clear_value options
  split
  · exact finds_bind passes_advance hoptions
  · exact finds_bind finds_unexpected hoptions

/-- The pieces of a template literal type and the types between them are passed. -/
theorem passes_templateTypeTail : ⦃r.past lo way⦄ templateTypeTail g ⦃r.passes lo way⦄ := by
  unfold templateTypeTail
  refine passes_repeating fun _ => finds_bind Grammar.Ordered.type fun _ => ?_
  refine finds_bind passes_atPunct fun _ => finds_when finds_unexpected ?_
  refine finds_bind passes_rereadTemplate fun _ => finds_bind passes_token fun _ => ?_
  split
  · exact finds_bind passes_advance fun _ => passes_pure
  · exact finds_bind passes_advance fun _ => passes_pure
  · exact finds_failAt
  · exact finds_unexpected

/-- A type that no operator binds is passed. -/
theorem passes_primaryType : ⦃r.past lo way⦄ primaryType g ⦃r.passes lo way⦄ := by
  have hname : ⦃r.past lo way⦄ (do entityName; adjacentTypeArguments g) ⦃r.passes lo way⦄ :=
    finds_bind passes_entityName fun _ => passes_adjacentTypeArguments
  unfold primaryType
  refine finds_bind passes_token fun first => ?_
  split
  · exact finds_fail
  · exact finds_failAt
  · exact passes_advance
  · exact passes_advance
  · exact passes_advance
  · exact passes_advance
  · exact finds_bind passes_advance fun _ => passes_templateTypeTail
  · refine finds_bind passes_advance fun _ => finds_bind passes_token fun _ => ?_
    split
    · exact passes_advance
    · exact passes_advance
    · exact finds_unexpected
  · refine finds_bind passes_atMappedType fun _ => ?_
    split
    · exact passes_mappedType
    · exact passes_typeMembers
  · refine finds_bind passes_advance fun _ => ?_
    exact finds_bind (passes_delimited passes_atPunct passes_tupleElement) fun _ => passes_expect
  · refine finds_bind passes_advance fun _ => ?_
    exact finds_bind Grammar.Ordered.type fun _ => passes_expect
  · refine finds_bind passes_advance fun _ => finds_bind passes_onNewLine fun _ => ?_
    refine finds_bind passes_atWord fun _ => ?_
    split
    · exact finds_bind passes_advance fun _ => Grammar.Ordered.type
    · exact passes_pure
  · refine finds_bind passes_advance fun _ => finds_bind passes_atWord fun _ => ?_
    refine finds_bind passes_onNewLine fun _ => ?_
    split
    · refine finds_bind passes_advance fun _ => finds_bind passes_eatWord fun _ => ?_
      split
      · exact Grammar.Ordered.type
      · exact passes_pure
    · refine finds_bind (passes_repeating fun _ => finds_bind passes_eat fun _ => ?_) fun _ =>
        passes_adjacentTypeArguments
      split
      · exact finds_bind passes_memberName fun _ => passes_pure
      · exact passes_pure
  · refine finds_bind passes_advance fun _ => finds_bind passes_atWord fun _ => ?_
    split
    · exact passes_importType
    · exact hname
  · exact passes_importType
  · split
    · exact finds_unexpected
    · exact finds_bind passes_eatParameterModifier fun _ => hname
  · exact finds_unexpected

/-- A primary type is passed with its array suffixes and indices. -/
theorem passes_arrayType : ⦃r.past lo way⦄ arrayType g ⦃r.passes lo way⦄ := by
  unfold arrayType
  refine finds_bind passes_primaryType fun _ => ?_
  refine passes_repeating fun _ => finds_bind passes_onNewLine fun _ => ?_
  refine finds_bind passes_atPunct fun _ => ?_
  split
  · refine finds_bind passes_advance fun _ => finds_bind passes_eat fun _ => ?_
    split
    · refine finds_bind Grammar.Ordered.type fun _ => ?_
      exact finds_bind passes_expect fun _ => passes_pure
    · exact passes_pure
  · exact passes_pure

/-- The parts of a union or an intersection are passed if each of them is. -/
theorem passes_operatorList {mark : Punct} {one : Parser Unit}
    (hone : ⦃r.past lo way⦄ one ⦃r.passes lo way⦄) :
    ⦃r.past lo way⦄ operatorList mark one ⦃r.passes lo way⦄ := by
  unfold operatorList
  refine finds_bind passes_eat fun _ => finds_bind hone fun _ => ?_
  refine passes_repeating fun _ => finds_bind passes_eat fun _ => ?_
  split
  · exact finds_bind hone fun _ => passes_pure
  · exact passes_pure

/-- A function type is passed. -/
theorem passes_functionType : ⦃r.past lo way⦄ functionType g ⦃r.passes lo way⦄ := by
  unfold functionType
  refine finds_bind passes_optionalTypeParameters fun _ => ?_
  exact finds_bind passes_signatureParameters fun _ => passes_predicateAnnotation

omit [g.Ordered] in
/-- To look for a function type is to pass nothing. -/
theorem passes_atFunctionType : ⦃r.past lo way⦄ atFunctionType g ⦃r.passes lo way⦄ := by
  unfold atFunctionType
  refine finds_bind passes_atPunct fun _ => ?_
  split
  · exact passes_pure
  refine finds_bind passes_atPunct fun _ => ?_
  split
  · exact passes_pure
  · exact passes_lookAhead

/-- A type with operators before it is passed, if a type that is not conditional is. -/
theorem passes_operatorType {nonConditional : Parser Unit}
    (hone : ⦃r.past lo way⦄ nonConditional ⦃r.passes lo way⦄) :
    ⦃r.past lo way⦄ operatorType g nonConditional ⦃r.passes lo way⦄ := by
  unfold operatorType
  refine finds_bind (passes_repeating fun _ => ?_) fun _ => finds_bind passes_eatWord fun _ => ?_
  · refine finds_bind passes_atWord fun _ => finds_bind passes_atWord fun _ => ?_
    refine finds_bind passes_atWord fun _ => ?_
    split
    · exact finds_bind passes_advance fun _ => passes_pure
    · exact passes_pure
  split
  · refine finds_bind passes_anyWord fun _ => ?_
    refine finds_bind (passes_optionally (finds_bind passes_expectWord fun _ => ?_)) fun _ =>
      passes_pure
    refine finds_bind hone fun _ => finds_bind passes_context fun _ => ?_
    refine finds_bind passes_atPunct fun _ => ?_
    split
    · exact passes_pure
    · exact passes_pure
  · exact finds_bind passes_modifier fun _ => passes_arrayType

/-- A type that is not conditional is passed, whatever the depth. -/
theorem passes_nonConditionalType {depth : Nat} :
    ⦃r.past lo way⦄ nonConditionalType g depth ⦃r.passes lo way⦄ := by
  induction depth with
  | zero => exact finds_fail
  | succ depth ih =>
      have hone := passes_operatorType (g := g) ih
      unfold nonConditionalType
      refine finds_bind passes_atFunctionType fun _ => ?_
      split
      · exact passes_functionType
      refine finds_bind passes_peek fun ⟨next, _⟩ => finds_bind passes_atWord fun _ => ?_
      refine finds_bind passes_atWord fun _ => ?_
      split
      · refine finds_bind passes_eatWord fun _ => ?_
        exact finds_bind passes_advance fun _ => passes_functionType
      · exact passes_operatorList (passes_operatorList hone)

/-- A type is passed. -/
theorem passes_typePhrase : ⦃r.past lo way⦄ typePhrase g ⦃r.passes lo way⦄ := by
  unfold typePhrase
  refine finds_within (finds_bind passes_context fun _ => ?_)
  refine finds_bind passes_nonConditionalType fun _ => finds_bind passes_onNewLine fun _ => ?_
  refine finds_bind passes_eatWord fun _ => ?_
  split
  · refine finds_bind (finds_within passes_nonConditionalType) fun _ => ?_
    refine finds_bind passes_expect fun _ => finds_bind Grammar.Ordered.type fun _ => ?_
    exact finds_bind passes_expect fun _ => Grammar.Ordered.type
  · exact passes_pure

end StringHarvest.Script
