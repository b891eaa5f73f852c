import StringHarvest.Json.Number
import StringHarvest.Json.Text
import StringHarvest.Text.Quoted

/-!
# JSON values

Values, reading them up to a depth, passing those that are not wanted, and
writing them over several lines.

* **`nextMember`** and **`nextElement`** lead to the next member of an object and to the next
  element of a list; every list and object is read through them.
* **`skipValue`** passes a value of any depth. It is less exact than reading
  about commas that nothing follows.
-/

namespace StringHarvest.Json

open Reader

/-- A JSON value. -/
inductive Value where
  | null
  | boolean (value : Bool)
  | number (value : Number)
  | string (text : String)
  | list (elements : List Value)
  | object (members : List (String × Value))

/-! ## Lists and objects -/

/-- Leads to the next member of an object: whether there is one, its opening
quote being the next character. -/
def nextMember (isFirst : Bool) : Reader Bool := do
  match ← peekToken with
  | none => failAhead .endInObject
  | some '}' => pure false
  | some c =>
    if isFirst then
      if c == '"' then pure true else failAhead .keyExpected
    else if c == ',' then
      advance
      match ← peekToken with
      | some '"' => pure true
      | some '}' => failAhead .trailingComma
      | some _ => failAhead .keyExpected
      | none => failAhead .endInValue
    else failAhead .objectEndExpected

/-- Passes the colon behind a key. -/
def colon : Reader Unit := do
  match ← peekToken with
  | some ':' => advance
  | some _ => failAhead .colonExpected
  | none => failAhead .endInObject

/-- The end of an object. -/
def objectEnd : Reader Unit := do
  match ← peekToken with
  | some '}' => advance
  | some ',' => failAhead .trailingComma
  | some _ => failAhead .trailingCharacters
  | none => failAhead .endInObject

/-- Leads to the next element of a list: whether there is one. -/
def nextElement (isFirst : Bool) : Reader Bool := do
  match ← peekToken with
  | none => failAhead .endInList
  | some ']' => pure false
  | some c =>
    if isFirst then pure true
    else if c == ',' then
      advance
      match ← peekToken with
      | some ']' => failAhead .trailingComma
      | some _ => pure true
      | none => failAhead .endInValue
    else failAhead .listEndExpected

/-- The end of a list. -/
def listEnd : Reader Unit := do
  match ← peekToken with
  | some ']' => advance
  | some ',' =>
    advance
    match ← peekToken with
    | some ']' => failAhead .trailingComma
    | _ => failAhead .trailingCharacters
  | some _ => failAhead .trailingCharacters
  | none => failAhead .endInList

/-- The elements of a list behind its opening bracket, and its end. -/
def elements {α : Type} (one : Reader α) : Reader (List α) :=
  enclosed
    (repeating [] fun done => do
      if ← nextElement done.isEmpty then do
        let x ← one
        pure (.inl (x :: done))
      else pure (.inr done.reverse))
    listEnd

/-! ## Reading values -/

/-- How deep lists and objects may stand inside each other, the outermost one counted. -/
def maxDepth : Nat := 128

/-- A value that holds lists and objects up to a depth. -/
def value : (depth : Nat) → Reader Value
  | 0 => failAhead .nestingLimit
  | depth + 1 => do
    match ← peekToken with
    | none => failAhead .endInValue
    | some 'n' => do advance; word "ull".toList; pure .null
    | some 't' => do advance; word "rue".toList; pure (.boolean true)
    | some 'f' => do advance; word "alse".toList; pure (.boolean false)
    | some '-' => do advance; return .number (← number true)
    | some '"' => do advance; return .string (← stringBody true)
    | some '[' =>
      if depth == 0 then failAhead .nestingLimit
      else do
        advance
        return .list (← elements (value depth))
    | some '{' =>
      if depth == 0 then failAhead .nestingLimit
      else do
        advance
        let members ← enclosed
          (repeating [] fun done => do
            if ← nextMember done.isEmpty then do
              advance
              let key ← stringBody true
              colon
              let v ← value depth
              pure (.inl ((key, v) :: done))
            else pure (.inr done.reverse))
          objectEnd
        return .object members
    | some c => if isDigit c then do return .number (← number false) else failAhead .valueExpected

/-- Fails because the value here is not of the kind that is wanted. A list or
an object is not entered. -/
def wrongKind {α : Type} (wanted : String) : Reader α := do
  match ← peekToken with
  | none => failAhead .endInValue
  | some 'n' => do advance; word "ull".toList; failHere (.invalidType "null" wanted)
  | some 't' => do advance; word "rue".toList; failHere (.invalidType "boolean `true`" wanted)
  | some 'f' => do advance; word "alse".toList; failHere (.invalidType "boolean `false`" wanted)
  | some '-' => do
    advance
    let n ← number true
    failHere (.invalidType n.describe wanted)
  | some '"' => do
    advance
    let text ← stringBody true
    failHere (.invalidType ("string " ++ Text.quoted text) wanted)
  | some '[' => failHere (.invalidType "sequence" wanted)
  | some '{' => failHere (.invalidType "map" wanted)
  | some c =>
    if isDigit c then do
      let n ← number false
      failHere (.invalidType n.describe wanted)
    else failAhead .valueExpected

/-- A string where one is wanted. -/
def string (wanted : String) : Reader String := do
  match ← peekToken with
  | some '"' => do advance; stringBody true
  | _ => wrongKind wanted

/-- A list where one is wanted. -/
def list {α : Type} (one : Reader α) : Reader (List α) := do
  match ← peekToken with
  | some '[' => do advance; elements one
  | _ => wrongKind "a sequence"

/-- The null value where it is wanted. -/
def null : Reader Unit := do
  match ← peekToken with
  | some 'n' => do advance; word "ull".toList
  | _ => wrongKind "unit"

/-- What must follow the last value of a text: nothing. -/
def ending : Reader Unit := do
  match ← peekToken with
  | some _ => failAhead .trailingCharacters
  | none => pure ()

/-! ## Passing values that are not wanted -/

/-- What a passed value stands in. -/
inductive Frame where
  | list
  | object
  deriving DecidableEq, Repr

/-- Where a walk over an unwanted value stands. -/
inductive Walk where
  /-- A value must follow. -/
  | atValue (outer : List Frame)
  /-- A value or an opening bracket has been passed; with `afterValue` a comma may follow. -/
  | inFrame (afterValue : Bool) (outer : List Frame)

/-- Passes the key of a member and its colon. -/
def skipKey : Reader Unit := do
  match ← peekToken with
  | some '"' =>
    advance
    let _ ← stringBody false
    colon
  | some _ => failAhead .keyExpected
  | none => failAhead .endInObject

/-- Leads from an element or a member to the value of the next one. -/
def enterNext (frame : Frame) : Reader Unit := do
  match frame with
  | .list => pure ()
  | .object => skipKey

/-- One step of the walk over an unwanted value. -/
def skipStep : Walk → Reader (Walk ⊕ Unit)
  | .atValue outer => do
    match ← peekToken with
    | none => failAhead .endInValue
    | some 'n' => do advance; word "ull".toList; return .inl (.inFrame true outer)
    | some 't' => do advance; word "rue".toList; return .inl (.inFrame true outer)
    | some 'f' => do advance; word "alse".toList; return .inl (.inFrame true outer)
    | some '-' => do advance; skipNumber; return .inl (.inFrame true outer)
    | some '"' => do
      advance
      let _ ← stringBody false
      return .inl (.inFrame true outer)
    | some '[' => do advance; return .inl (.inFrame false (.list :: outer))
    | some '{' => do advance; return .inl (.inFrame false (.object :: outer))
    | some c =>
      if isDigit c then do
        skipNumber
        return .inl (.inFrame true outer)
      else failAhead .valueExpected
  | .inFrame _ [] => return .inr ()
  | .inFrame afterValue (frame :: outer) => do
    match ← peekToken, frame with
    | some ']', .list => do advance; return .inl (.inFrame true outer)
    | some '}', .object => do advance; return .inl (.inFrame true outer)
    | none, .list => failAhead .endInList
    | none, .object => failAhead .endInObject
    | some c, _ =>
      if !afterValue then do
        enterNext frame
        return .inl (.atValue (frame :: outer))
      else if c == ',' then do
        advance
        enterNext frame
        return .inl (.atValue (frame :: outer))
      else failAhead (if frame == .list then .listEndExpected else .objectEndExpected)

/-- Passes a value of any kind and depth. Every character takes at most two steps. -/
def skipValue : Reader Unit := fun c =>
  repeatFrom skipStep (2 * c.rest.length + 2) (.atValue []) c

/-! ## Writing values -/

/-- Spaces before a line at a depth. -/
def indent (depth : Nat) : List Char := List.replicate (2 * depth) ' '

/-- Parts on lines of their own between brackets; without parts the brackets stand together. -/
def onLines (opening closing : Char) (depth : Nat) : List (List Char) → List Char
  | [] => [opening, closing]
  | parts =>
    opening :: '\n' :: [',', '\n'].intercalate (parts.map fun part => indent (depth + 1) ++ part)
      ++ '\n' :: indent depth ++ [closing]

mutual

/-- The text of a value whose first line is already indented. -/
def render (depth : Nat) : Value → List Char
  | .null => "null".toList
  | .boolean true => "true".toList
  | .boolean false => "false".toList
  | .number (.integer n) => (toString n).toList
  | .number (.float f) => f.scientific.toList
  | .string text => quote text
  | .list values => onLines '[' ']' depth (renderAll (depth + 1) values)
  | .object members => onLines '{' '}' depth (renderMembers (depth + 1) members)

/-- The texts of the elements of a list. -/
def renderAll (depth : Nat) : List Value → List (List Char)
  | [] => []
  | v :: rest => render depth v :: renderAll depth rest

/-- The texts of the members of an object. -/
def renderMembers (depth : Nat) : List (String × Value) → List (List Char)
  | [] => []
  | (key, v) :: rest => (quote key ++ ':' :: ' ' :: render depth v) :: renderMembers depth rest

end

/-- The text of a value over several lines. -/
def Value.pretty (v : Value) : String := String.ofList (render 0 v)

end StringHarvest.Json
