import StringHarvest.Config.Basic
import StringHarvest.Json.Value

/-!
# Settings as JSON

Settings are kept as a JSON object. A record may also be written as a list of its fields
in order, with the last ones left out; unknown members are passed over, and a member
that is absent has its default.
-/

namespace StringHarvest.Config

open Json Json.Reader

/-! ## Records -/

/-- A field of a record that is being read. -/
structure Field (σ : Type) where
  /-- The name of the member. -/
  name : String
  /-- Whether the field has been read. -/
  isSet : σ → Bool
  /-- Reads the field. -/
  read : σ → Reader σ

/-- Reads the members of a record. -/
def members {σ : Type} (fields : List (Field σ)) (start : σ) : Reader σ :=
  repeating (true, start) fun (isFirst, record) => do
    if ← nextMember isFirst then do
      advance
      let key ← stringBody true
      match fields.find? (·.name == key) with
      | some field =>
        if field.isSet record then failAround (.duplicateField key)
        else do
          colon
          let record ← field.read record
          pure (.inl (false, record))
      | none => do
        colon
        skipValue
        pure (.inl (false, record))
    else pure (.inr record)

/-- Reads the fields of a record in order, as far as they are given. -/
def inOrder {σ : Type} : (isFirst : Bool) → List (Field σ) → σ → Reader σ
  | _, [], record => pure record
  | isFirst, field :: rest, record => do
    if ← nextElement isFirst then do
      let record ← field.read record
      inOrder false rest record
    else inOrder isFirst rest record

/-- Reads a record. -/
def record {σ : Type} (wanted : String) (fields : List (Field σ)) (start : σ) : Reader σ := do
  match ← peekToken with
  | some '[' => do advance; enclosed (inOrder true fields start) listEnd
  | some '{' => do advance; enclosed (members fields start) objectEnd
  | _ => wrongKind wanted

/-! ## The fields -/

/-- The name of a language, as a string. -/
def readLanguageName : Reader Language := do
  let name ← string "variant identifier"
  match Language.ofName? name with
  | some language => pure language
  | none => failHere (.unknownVariant name "`javascript` or `typescript`")

/-- A language: its name, or an object that holds nothing under its name. -/
def readLanguage : Reader Language := do
  match ← peekToken with
  | some '"' => readLanguageName
  | some '{' => do
    advance
    let l ← readLanguageName
    colon
    null
    match ← peekToken with
    | some '}' => do advance; pure l
    | some _ => failHere .valueExpected
    | none => failHere .endInObject
  | some _ => failAhead .valueExpected
  | none => failAhead .endInValue

/-- The texts of a list of strings. -/
def stringsOf? (elements : List Value) : Option (List String) :=
  elements.mapM fun
    | .string text => some text
    | _ => none

/-- The names of message functions: a string or a list of strings. -/
def readFunctionNames : Reader MessageFunctions := do
  match ← value (maxDepth - 1) with
  | .string name => pure (.one name)
  | .list elements =>
    match stringsOf? elements with
    | some names => pure (.many names)
    | none => failAround (.noVariant "FunctionNames")
  | _ => failAround (.noVariant "FunctionNames")

/-- A group that is being read. -/
structure PartialGroup where
  /-- The language, once it is read. -/
  language : Option Language := none
  /-- The sources, once they are read. -/
  sources : Option (List String) := none

/-- The fields of a group. -/
def groupFields : List (Field PartialGroup) :=
  [ { name := "extractor"
      isSet := fun g => g.language.isSome
      read := fun g => do return { g with language := some (← readLanguage) } },
    { name := "src"
      isSet := fun g => g.sources.isSome
      read := fun g => do return { g with sources := some (← list (string "a string")) } } ]

/-- A group of sources. -/
def readGroup : Reader SourceGroup := do
  let g ← record "struct GroupConfig" groupFields {}
  return { language := g.language.getD .javascript, sources := g.sources.getD [] }

/-- Settings that are being read. -/
structure PartialConfig where
  /-- The function names, once they are read. -/
  functionNames : Option MessageFunctions := none
  /-- The template, once it is read. -/
  template : Option String := none
  /-- The groups, once they are read. -/
  groups : Option (List SourceGroup) := none

/-- The fields of settings. -/
def configFields : List (Field PartialConfig) :=
  [ { name := "functionName"
      isSet := fun c => c.functionNames.isSome
      read := fun c => do return { c with functionNames := some (← readFunctionNames) } },
    { name := "potFile"
      isSet := fun c => c.template.isSome
      read := fun c => do return { c with template := some (← string "a string") } },
    { name := "groups"
      isSet := fun c => c.groups.isSome
      read := fun c => do return { c with groups := some (← list readGroup) } } ]

/-- Settings with the defaults for what is absent. -/
def PartialConfig.complete (c : PartialConfig) : Config :=
  { functionNames := c.functionNames.getD ({} : Config).functionNames
    template := c.template.getD ({} : Config).template
    groups := c.groups.getD ({} : Config).groups }

/-- Reads the settings that a text holds. -/
def ofText (text : String) : Except Failure Config :=
  let whole : Reader Config := do
    let c ← record "struct Config" configFields {}
    ending
    return c.complete
  match whole (Cursor.first text) with
  | .done config _ => .ok config
  | .failed fault place cursor => .error ⟨fault, place.getD cursor.place⟩

/-! ## Writing -/

/-- Strings as a JSON list. -/
def stringsValue (texts : List String) : Value := .list (texts.map .string)

/-- Function names as JSON. -/
def namesValue : MessageFunctions → Value
  | .one name => .string name
  | .many names => stringsValue names

/-- A group as JSON. -/
def groupValue (g : SourceGroup) : Value :=
  .object [("extractor", .string g.language.name), ("src", stringsValue g.sources)]

/-- Settings as JSON. -/
def toValue (config : Config) : Value :=
  .object
    [("functionName", namesValue config.functionNames), ("potFile", .string config.template),
      ("groups", .list (config.groups.map groupValue))]

/-- The text of settings. -/
def toText (config : Config) : String := config.toValue.pretty

end StringHarvest.Config
