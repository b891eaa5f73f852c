import StringHarvest.Proofs.Script.Order.Types

/-!
# Readers in the order of the text: functions and classes

Of a function the body is read, of a class the parent and the members. Where a phrase has a choice
in its middle, what follows the choice has a name of its own: first every branch is shown to lead to
it, then it is dealt with. A branch that may give the result at once, such as a member named by a
word that is a modifier elsewhere, has found nothing if it goes on (`finds_keep`).
-/

namespace StringHarvest.Script

open StringHarvest.Script.Parser Std.Do

variable {r : Reading} {lo : Location} {way : List Stop} {g : Grammar} [g.Ordered]

/-! ## Functions -/

/-- Statements are read one behind the other, up to the brace or the end of the text. -/
theorem reads_statements : ⦃r.past lo way⦄ statements g ⦃r.reads lo way⦄ := by
  unfold statements
  refine reads_repeating fun done => finds_bind passes_eat fun _ => ?_
  split
  · exact finds_pure (by simp)
  refine finds_bind passes_atEnd fun _ => ?_
  split
  · exact finds_pure (by simp)
  · exact finds_bind Grammar.Ordered.statement fun next => finds_pure (by simp)

/-- A block is read with its statements. -/
theorem reads_block : ⦃r.past lo way⦄ block g ⦃r.reads lo way⦄ := by
  unfold block
  exact finds_bind passes_expect fun _ => reads_statements

/-- The body of a function is a block, or nothing where a signature ends. -/
theorem reads_functionBody : ⦃r.past lo way⦄ functionBody g ⦃r.reads lo way⦄ := by
  have hblock : ⦃r.past lo way⦄ (do return .block (← block g) : Parser Body) ⦃r.reads lo way⦄ :=
    finds_bind reads_block fun statements => finds_pure (by simp)
  unfold functionBody
  refine finds_bind passes_typescript fun _ => finds_bind passes_atPunct fun _ => ?_
  split
  · refine finds_bind passes_eatStatementEnd fun _ => ?_
    split
    · exact finds_pure (by simp)
    · exact hblock
  · exact hblock

/-- A function has the stops of its body, however its parameters are passed. -/
theorem reads_functionParts {params : Parser Unit} {isAsync isGenerator keepSuper : Bool}
    (hparams : ⦃r.past lo way⦄ params ⦃r.passes lo way⦄) :
    ⦃r.past lo way⦄ functionParts g params isAsync isGenerator keepSuper ⦃r.reads lo way⦄ := by
  unfold functionParts
  refine finds_within (finds_bind passes_optionalTypeParameters fun _ => ?_)
  refine finds_bind passes_expect fun _ => finds_bind hparams fun _ => ?_
  refine finds_bind passes_expect fun _ => finds_bind passes_typescript fun _ => ?_
  refine finds_bind passes_atPunct fun _ => ?_
  exact finds_when passes_predicateAnnotation reads_functionBody

/-- So has a method. -/
theorem reads_method {isAsync isGenerator : Bool} :
    ⦃r.past lo way⦄ method g isAsync isGenerator ⦃r.reads lo way⦄ := by
  unfold method
  exact finds_within (reads_functionParts passes_parameters)

/-- So has a function behind its word. -/
theorem reads_functionAfterWord {isAsync nameWanted : Bool} :
    ⦃r.past lo way⦄ functionAfterWord g isAsync nameWanted ⦃r.reads lo way⦄ := by
  unfold functionAfterWord
  refine finds_bind passes_eat fun isGenerator => finds_bind passes_atAnyWord fun _ => ?_
  exact finds_when passes_bindingName (reads_functionParts passes_parameters)

/-- The body of an arrow function is a block or an expression. -/
theorem reads_arrowBody {isAsync : Bool} :
    ⦃r.past lo way⦄ arrowBody g isAsync ⦃r.reads lo way⦄ := by
  unfold arrowBody
  refine finds_bind passes_atPunct fun _ => ?_
  split
  · exact finds_within (finds_bind reads_block fun statements => finds_pure (by simp))
  · exact finds_within (finds_bind Grammar.Ordered.assign fun value => finds_pure (by simp))

/-- To look for a function is to pass nothing. -/
theorem passes_functionFollows : ⦃r.past lo way⦄ functionFollows ⦃r.passes lo way⦄ := by
  unfold functionFollows
  exact finds_bind passes_peek fun ⟨next, lineBreak⟩ => passes_pure

/-- To look for a method is to pass nothing. -/
theorem passes_atMethod : ⦃r.past lo way⦄ atMethod ⦃r.passes lo way⦄ := by
  unfold atMethod
  refine finds_bind passes_atPunct fun _ => ?_
  split
  · exact passes_pure
  · exact finds_bind passes_typescript fun _ => finds_bind passes_atPunct fun _ => passes_pure

/-- To look for a field is to pass nothing. -/
theorem passes_atField {lineEnds : Bool} :
    ⦃r.past lo way⦄ atField lineEnds ⦃r.passes lo way⦄ := by
  unfold atField
  refine finds_bind passes_typescript fun _ => finds_bind passes_atAny fun _ => ?_
  split
  · exact passes_pure
  refine finds_bind passes_atAny fun _ => ?_
  split
  · exact passes_pure
  split
  · exact passes_atStatementEnd
  · exact passes_atPunct

/-- An accessor and a field have the stops of their initial value. -/
theorem stops_accessorOrField (isAccessor : Bool) (key : Key) (value : Option Expr) :
    r.stops (if isAccessor then ClassMember.accessor key value else .field key value) =
      r.stops value := by
  cases isAccessor <;> rfl

/-- A field has the stops of its initial value. -/
theorem reads_field {key : Key} {keyStart : Nat} {isOptional isAccessor : Bool} :
    ⦃r.past lo way⦄ field g key keyStart isOptional isAccessor ⦃r.reads lo way⦄ := by
  unfold field
  extract_lets -underBinder checked
  have hchecked (u) : ⦃r.past lo way⦄ checked u ⦃r.reads lo way⦄ := by
    refine finds_bind passes_typescript fun _ => finds_when passes_eat ?_
    refine finds_bind passes_optionalAnnotation fun _ => ?_
    refine finds_behind (finds_within (finds_bind passes_eat fun _ => ?_)) fun value => ?_
    · split
      · exact finds_bind Grammar.Ordered.assign fun value => finds_pure (by simp)
      · exact finds_pure (by simp)
    · exact finds_bind passes_eatStatementEnd fun _ => finds_pure (by simp [stops_accessorOrField])
  clear_value checked
  -- a field must not be named like the function that sets up an instance
  split
  · exact finds_bind finds_failAt hchecked
  · exact finds_bind finds_failAt hchecked
  · exact hchecked ()

/-- A member that is named by a word is read if it is one; otherwise nothing is passed but the word.
-/
theorem reads_memberNamed {word : String} {start : Nat} :
    ⦃r.past lo way⦄ memberNamed g word start ⦃r.reads lo way⦄ := by
  unfold memberNamed
  refine finds_bind passes_atMethod fun _ => ?_
  split
  · exact finds_bind reads_method fun body => finds_pure (by simp)
  refine finds_bind passes_atField fun _ => ?_
  split
  · exact finds_bind reads_field fun member => finds_pure (by simp)
  · exact finds_pure (by simp)

/-- The function that sets up an instance has the stops of its body. -/
theorem reads_initialiser : ⦃r.past lo way⦄ initialiser g ⦃r.reads lo way⦄ := by
  unfold initialiser
  refine finds_bind (finds_within (reads_functionParts passes_memberParameters)) fun body => ?_
  exact finds_pure (by simp)

/-- A method with its key has the stops of its body. -/
theorem reads_methodOf {key : Key} {isAsync isGenerator : Bool} :
    ⦃r.past lo way⦄ (do return ClassMember.method key (← method g isAsync isGenerator))
      ⦃r.reads lo way⦄ :=
  finds_bind reads_method fun _ => finds_pure (by simp)

/-- A member behind its modifiers is read: a generator, a method, a field, an asynchronous method, a
getter or a setter. The choices in front of each leave nothing behind. -/
theorem reads_keyedMember {start : Nat} {isStatic readonly isAccessor : Bool} :
    ⦃r.past lo way⦄ keyedMember g start isStatic readonly isAccessor ⦃r.reads lo way⦄ := by
  unfold keyedMember
  refine finds_bind passes_eat fun isGenerator => ?_
  split
  · exact finds_bind passes_classKey fun _ => reads_methodOf
  refine finds_bind passes_position fun keyStart => finds_bind passes_atAny fun atType => ?_
  extract_lets -underBinder keyed
  suffices hkeyed : ∀ key, ⦃r.past lo way⦄ keyed key ⦃r.reads lo way⦄ by
    clear_value keyed
    split
    · exact finds_bind passes_pure hkeyed
    · exact finds_bind passes_classKey hkeyed
  intro key
  refine finds_bind passes_typescript fun ts => ?_
  extract_lets -underBinder marked
  suffices hmarked : ∀ isOptional, ⦃r.past lo way⦄ marked isOptional ⦃r.reads lo way⦄ by
    clear_value marked
    split
    · exact finds_bind passes_eat hmarked
    · exact finds_bind passes_pure hmarked
  intro isOptional
  refine finds_bind passes_atMethod fun isMethod => ?_
  split
  · refine finds_when finds_failAt ?_
    split
    · exact reads_initialiser
    · exact reads_methodOf
  refine finds_bind passes_onNewLine fun onNewLine => finds_bind passes_atPunct fun isStar => ?_
  extract_lets -underBinder _ told
  suffices htold : ∀ accessorWord, ⦃r.past lo way⦄ told accessorWord ⦃r.reads lo way⦄ by
    clear_value told
    split
    · exact finds_bind passes_atField fun _ => finds_bind passes_pure htold
    · exact finds_bind passes_atField fun _ => finds_bind passes_pure htold
    · exact finds_bind passes_pure htold
  intro accessorWord
  refine finds_bind passes_atField fun isField => ?_
  split
  · exact reads_field
  extract_lets -underBinder plain
  suffices hplain : ∀ u, ⦃r.past lo way⦄ plain u ⦃r.reads lo way⦄ by
    clear_value plain
    split
    · refine finds_bind passes_onNewLine fun _ => ?_
      split
      · refine finds_bind passes_modifier fun _ => finds_bind passes_eat fun isGenerator => ?_
        refine finds_bind passes_position fun asyncStart => finds_bind passes_classKey fun k => ?_
        refine finds_when finds_failAt (finds_when finds_failAt ?_)
        exact finds_bind passes_typescript fun _ => finds_when passes_eat reads_methodOf
      · exact hplain ()
    · exact hplain ()
  intro u
  unfold plain
  split
  · exact finds_bind passes_classKey fun k => reads_methodOf
  · exact finds_unexpected

/-- The modifiers of a member are passed. -/
theorem passes_memberModifiers : ⦃r.past lo way⦄ memberModifiers ⦃r.passes lo way⦄ := by
  unfold memberModifiers
  refine passes_repeating fun _ => finds_bind passes_modifier fun _ => ?_
  split <;> exact passes_pure

/-- A member of a class is read. The words `declare`, `static` and `accessor` may turn out to be its
name. -/
theorem reads_classMember : ⦃r.past lo way⦄ classMember g ⦃r.reads lo way⦄ := by
  unfold classMember
  refine finds_bind passes_position fun start => finds_bind passes_typescript fun ts => ?_
  extract_lets -underBinder afterDeclare
  suffices hdeclare : ∀ u, ⦃r.past lo way⦄ afterDeclare u ⦃r.reads lo way⦄ by
    clear_value afterDeclare
    split
    · refine finds_bind passes_eatWord fun _ => ?_
      split
      · exact finds_ifRead reads_memberNamed (fun _ => finds_pure (by simp)) (hdeclare ())
      · exact hdeclare ()
    · exact hdeclare ()
  intro u
  refine finds_bind passes_modifier fun accessibility => ?_
  extract_lets -underBinder afterAccess
  suffices haccess : ∀ u, ⦃r.past lo way⦄ afterAccess u ⦃r.reads lo way⦄ by
    clear_value afterAccess
    split
    · refine finds_bind passes_eatWord fun _ => ?_
      split
      · exact finds_ifRead reads_memberNamed (fun _ => finds_pure (by simp)) (haccess ())
      · exact haccess ()
    · exact haccess ()
  intro u
  refine finds_bind passes_eatWord fun isStatic => ?_
  extract_lets -underBinder afterAccessor
  suffices haccessor : ∀ isAccessor, ⦃r.past lo way⦄ afterAccessor isAccessor ⦃r.reads lo way⦄ by
    clear_value afterAccessor
    split
    · exact finds_bind passes_eatWord haccessor
    · exact finds_bind passes_pure haccessor
  intro isAccessor
  unfold afterAccessor
  extract_lets -underBinder afterStatic
  suffices hstatic : ∀ u, ⦃r.past lo way⦄ afterStatic u ⦃r.reads lo way⦄ by
    clear_value afterStatic
    split
    · exact finds_ifRead reads_memberNamed (fun _ => finds_pure (by simp)) (hstatic ())
    · exact hstatic ()
  intro u
  unfold afterStatic
  extract_lets -underBinder beforeModifiers
  suffices hbefore : ∀ u, ⦃r.past lo way⦄ beforeModifiers u ⦃r.reads lo way⦄ by
    clear_value beforeModifiers
    split
    · exact finds_ifRead reads_memberNamed (fun _ => finds_pure (by simp)) (hbefore ())
    · exact hbefore ()
  intro u
  refine finds_bind passes_memberModifiers fun ⟨readonly, moreStatic, other⟩ => ?_
  dsimp -zeta only
  extract_lets -underBinder afterModifiers
  suffices hmodifiers : ∀ isAccessor, ⦃r.past lo way⦄ afterModifiers isAccessor ⦃r.reads lo way⦄ by
    clear_value afterModifiers
    split
    · refine finds_bind passes_peek fun ⟨next, lineBreak⟩ => finds_bind passes_atWord fun _ => ?_
      split
      · exact finds_bind passes_eatWord hmodifiers
      · exact finds_bind passes_pure hmodifiers
    · exact finds_bind passes_pure hmodifiers
  intro isAccessor
  unfold afterModifiers
  refine finds_bind passes_atPunct fun _ => ?_
  split
  · exact finds_bind (finds_within reads_block) fun _ => finds_pure (by simp)
  refine finds_bind passes_peek fun ⟨next, _⟩ => finds_bind passes_atWord fun _ => ?_
  split
  · refine finds_bind passes_advance fun _ => finds_bind (finds_within reads_block) fun _ => ?_
    exact finds_pure (by simp)
  split
  · refine finds_bind passes_indexSignature fun _ => ?_
    split
    · exact finds_pure (by simp)
    · exact reads_keyedMember
  · exact reads_keyedMember

/-- The members of a class are read one behind the other. -/
theorem reads_classMembers : ⦃r.past lo way⦄ classMembers g ⦃r.reads lo way⦄ := by
  unfold classMembers
  refine reads_repeating fun done => finds_bind passes_atPunct fun _ => ?_
  split
  · exact finds_pure (by simp)
  refine finds_bind passes_eat fun _ => ?_
  split
  · exact finds_pure (by simp)
  · exact finds_bind (finds_within reads_classMember) fun next => finds_pure (by simp)

/-- A type that a class is said to extend is passed. -/
theorem passes_heritage : ⦃r.past lo way⦄ heritage g ⦃r.passes lo way⦄ := by
  unfold heritage
  refine finds_bind passes_entityName fun _ => finds_bind passes_atAny fun _ => ?_
  split
  · exact passes_typeArguments
  · exact passes_pure

/-- So is a list of such types. -/
theorem passes_heritageList : ⦃r.past lo way⦄ heritageList g ⦃r.passes lo way⦄ := by
  unfold heritageList
  refine passes_delimited ?_ passes_heritage
  refine finds_bind passes_atPunct fun _ => finds_bind passes_atWord fun _ => ?_
  exact finds_bind passes_atWord fun _ => passes_pure

/-- A parent is an expression; its type arguments are passed. -/
theorem reads_parentClass : ⦃r.past lo way⦄ parentClass g ⦃r.reads lo way⦄ := by
  unfold parentClass
  refine finds_bind Grammar.Ordered.leftSide fun parent => ?_
  refine finds_bind passes_typescript fun _ => finds_bind passes_atAny fun _ => ?_
  exact finds_when passes_typeArguments (finds_pure (by simp))

/-- A class has the stops of its parent and its members. The parent stands before the members, also
when it stands late, and of several parents the first one counts. -/
theorem reads_classAfterWord {nameWanted : Bool} :
    ⦃r.past lo way⦄ classAfterWord g nameWanted ⦃r.reads lo way⦄ := by
  unfold classAfterWord
  refine finds_bind passes_typescript fun ts => finds_bind passes_atAnyWord fun isWord => ?_
  refine finds_bind passes_atWord fun isExtends => finds_bind passes_atWord fun isImplements => ?_
  refine finds_when passes_bindingName ?_
  refine finds_bind passes_optionalTypeParameters fun _ => finds_bind passes_eatWord fun _ => ?_
  extract_lets -underBinder withParent
  suffices hparent : ∀ parent,
      ⦃r.past lo (way ++ r.stops parent)⦄ withParent parent ⦃r.reads lo way⦄ by
    clear_value withParent
    split
    · refine finds_bind reads_parentClass fun parent => ?_
      have hsome : ⦃r.past lo (way ++ r.stops parent)⦄ (pure (some parent) >>= withParent)
          ⦃r.reads lo way⦄ := finds_given (finds_keep (by simp) (hparent (some parent)))
      split
      · exact finds_bind passes_eat fun _ => finds_when passes_heritageList hsome
      · exact hsome
    · exact finds_given (finds_keep (by simp) (hparent none))
  intro parent
  refine finds_bind passes_eatWord fun isExtends => ?_
  refine finds_when (passes_of_reads reads_parentClass) ?_
  beta_reduce
  extract_lets -underBinder implementing
  suffices himplements : ∀ u,
      ⦃r.past lo (way ++ r.stops parent)⦄ implementing u ⦃r.reads lo way⦄ by
    clear_value implementing
    split
    · refine finds_bind passes_eatWord fun _ => finds_when passes_heritageList ?_
      refine finds_bind passes_eatWord fun _ => ?_
      exact finds_when passes_heritageList (himplements ())
    · exact himplements ()
  intro u
  refine finds_bind passes_eatWord fun isExtends => ?_
  extract_lets -underBinder body
  suffices hbody : ∀ parent, ⦃r.past lo (way ++ r.stops parent)⦄ body parent ⦃r.reads lo way⦄ by
    clear_value body
    split
    · refine finds_bind reads_parentClass fun late => finds_given (finds_keep ?_ (hbody _))
      -- a parent that stands late counts only where there is none
      cases parent <;> simp
    · exact finds_given (hbody parent)
  intro parent
  refine finds_bind passes_expect fun _ => ?_
  refine finds_bind (finds_within reads_classMembers) fun members => ?_
  exact finds_bind passes_atEnd fun _ => finds_when passes_expect (finds_pure (by simp))

end StringHarvest.Script
