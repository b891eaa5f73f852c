import StringHarvest.Number.Binary64

/-!
# Tokens

The lexical elements of a script and the way messages name them. Words are not split into names and
keywords here: the same word may be either, depending on where it stands, and the tests `isReserved`
and `isKnownWord` tell the two apart.
-/

namespace StringHarvest.Script

/-- Punctuation. -/
inductive Punct where
  | braceL | braceR | parenL | parenR | bracketL | bracketR
  | dot | dots | semi | comma | colon | question | questionDot | arrow | at | hash
  | lt | gt | le | ge | eq2 | ne2 | eq3 | ne3
  | plus | minus | star | slash | percent | star2 | plus2 | minus2
  | shl | shr | ushr | amp | pipe | caret | bang | tilde | amp2 | pipe2 | question2
  | assign | plusEq | minusEq | starEq | slashEq | percentEq | star2Eq | shlEq | shrEq | ushrEq
  | ampEq | pipeEq | caretEq | amp2Eq | pipe2Eq | question2Eq
  /-- The start of a closing tag. -/
  | closeTag
  deriving DecidableEq, Repr

/-- The characters of a punctuation mark. -/
def Punct.text : Punct → String
  | .braceL => "\x7b" | .braceR => "\x7d" | .parenL => "(" | .parenR => ")" | .bracketL => "["
  | .bracketR => "]" | .dot => "." | .dots => "..." | .semi => ";" | .comma => "," | .colon => ":"
  | .question => "?" | .questionDot => "?." | .arrow => "=>" | .at => "@" | .hash => "#"
  | .lt => "<" | .gt => ">" | .le => "<=" | .ge => ">=" | .eq2 => "==" | .ne2 => "!="
  | .eq3 => "===" | .ne3 => "!==" | .plus => "+" | .minus => "-" | .star => "*" | .slash => "/"
  | .percent => "%" | .star2 => "**" | .plus2 => "++" | .minus2 => "--" | .shl => "<<"
  | .shr => ">>" | .ushr => ">>>" | .amp => "&" | .pipe => "|" | .caret => "^" | .bang => "!"
  | .tilde => "~" | .amp2 => "&&" | .pipe2 => "||" | .question2 => "??" | .assign => "="
  | .plusEq => "+=" | .minusEq => "-=" | .starEq => "*=" | .slashEq => "/=" | .percentEq => "%="
  | .star2Eq => "**=" | .shlEq => "<<=" | .shrEq => ">>=" | .ushrEq => ">>>=" | .ampEq => "&="
  | .pipeEq => "|=" | .caretEq => "^=" | .amp2Eq => "&&=" | .pipe2Eq => "||="
  | .question2Eq => "??=" | .closeTag => "</"

/-- How tightly a punctuation mark binds as a binary operator, if it is one. -/
def Punct.precedence? : Punct → Option Nat
  | .pipe2 | .question2 => some 1
  | .amp2 => some 2
  | .pipe => some 3
  | .caret => some 4
  | .amp => some 5
  | .eq2 | .ne2 | .eq3 | .ne3 => some 6
  | .lt | .gt | .le | .ge => some 7
  | .shl | .shr | .ushr => some 8
  | .plus | .minus => some 9
  | .star | .slash | .percent => some 10
  | .star2 => some 11
  | _ => none

/-- Whether a punctuation mark assigns. -/
def Punct.assigns : Punct → Bool
  | .assign | .plusEq | .minusEq | .starEq | .slashEq | .percentEq | .star2Eq | .shlEq | .shrEq
  | .ushrEq | .ampEq | .pipeEq | .caretEq | .amp2Eq | .pipe2Eq | .question2Eq => true
  | _ => false

/-! ## Faults -/

/-- Why a script cannot be read. -/
inductive Fault where
  | expressionExpected
  | statementEndExpected
  | tokenExpected (wanted found : String)
  | unexpectedToken (found wanted : String)
  | nameExpected
  | unexpectedEnd
  | invalidAssignmentTarget
  | notAPattern
  | notAnExpression
  | unterminatedRegex
  | unterminatedTemplate
  | nameAfterNumber
  | digitExpected
  | unexpectedCharacter (c : Char)
  | badEscape (wanted : String)
  | unicodeEscapeExpected
  | octalEscape
  | escapedKeyword (word : String)
  | closingTagExpected (tag : String)
  | emptyAttribute
  | invalidAttribute
  | invalidSuper
  | lineBreakAfterThrow
  | lineBreakBeforeArrow
  | arrowNotAllowed
  | emptyParentheses
  | spreadInParentheses
  | unaryBeforePower
  | awaitStar
  | optionalNew
  | patternWithoutValue
  | optionalPattern
  | importOutsideModule
  | reservedImport
  | stringImport (name : String)
  | stringExport
  | asyncConstructor
  | constructorField
  | readonlyMethod
  | readonlyAccessor
  | accessorParameterExpected
  | nestingLimit
  deriving DecidableEq, Repr

/-- The wording of a fault. -/
def Fault.message : Fault → String
  | .expressionExpected => "Expression expected"
  | .statementEndExpected => "Expected ';', '\x7d' or <eof>"
  | .tokenExpected wanted found => "Expected '" ++ wanted ++ "', got '" ++ found ++ "'"
  | .unexpectedToken found wanted => "Unexpected token `" ++ found ++ "`. Expected " ++ wanted
  | .nameExpected => "Expected ident"
  | .unexpectedEnd => "Unexpected eof"
  | .invalidAssignmentTarget => "Invalid assignment target"
  | .notAPattern => "Not a pattern"
  | .notAnExpression => "Not an expression"
  | .unterminatedRegex => "Unterminated regexp literal"
  | .unterminatedTemplate => "Unterminated template"
  | .nameAfterNumber => "Identifier cannot follow number"
  | .digitExpected => "Expected digits"
  | .unexpectedCharacter c => "Unexpected character '" ++ String.ofList [c] ++ "'"
  | .badEscape wanted => "Bad character escape sequence, expected " ++ wanted
  | .unicodeEscapeExpected => "Expected unicode escape"
  | .octalEscape => "Legacy octal escape is not permitted in strict mode"
  | .escapedKeyword word => "Unexpected escape sequence in reserved word: " ++ word
  | .closingTagExpected tag => "Expected corresponding JSX closing tag for <" ++ tag ++ ">"
  | .emptyAttribute => "JSX attributes must only be assigned a non-empty expression"
  | .invalidAttribute => "JSX value should be either an expression or a quoted JSX text"
  | .invalidSuper => "Invalid access to super"
  | .lineBreakAfterThrow => "LineBreak cannot follow 'throw'"
  | .lineBreakBeforeArrow => "Unexpected line break between arrow head and arrow"
  | .arrowNotAllowed => "An arrow function is not allowed here"
  | .emptyParentheses => "Parenthesized expression cannot be empty"
  | .spreadInParentheses => "Parenthesized expression cannot contain spread operator"
  | .unaryBeforePower => "** cannot be applied to unary expression"
  | .awaitStar =>
    "await* has been removed from the async functions proposal. Use Promise.all() instead."
  | .optionalNew => "Constructor in/after an optional chaining is not allowed."
  | .patternWithoutValue => "Destructuring bindings require initializers"
  | .optionalPattern =>
    "A binding pattern parameter cannot be optional in an implementation signature."
  | .importOutsideModule => "'import', and 'export' cannot be used outside of module code"
  | .reservedImport => "cannot import as reserved word"
  | .stringImport name =>
    "A string literal cannot be used as an imported binding.\n- Did you mean `import \x7b \"" ++ name
      ++ "\" as foo \x7d`?"
  | .stringExport => "A string literal cannot be used as an exported binding without `from`."
  | .asyncConstructor => "Constructor can't be an async function"
  | .constructorField => "Classes may not have a non-static field named 'constructor'"
  | .readonlyMethod => "A method cannot be readonly"
  | .readonlyAccessor => "A getter or a setter cannot be readonly"
  | .accessorParameterExpected => "A `set` accessor should have exactly one required parameter"
  | .nestingLimit => "Nesting is too deep"

/-! ## Words -/

/-- The words that can never be a name of their own. -/
def reservedWords : List String :=
  ["break", "case", "catch", "class", "const", "continue", "debugger", "default", "delete", "do",
    "else", "enum", "export", "extends", "false", "finally", "for", "function", "if", "import",
    "in", "instanceof", "new", "null", "return", "super", "switch", "this", "throw", "true", "try",
    "typeof", "var", "void", "while", "with"]

/-- The words that have a meaning in some place and may be names elsewhere. -/
def contextualWords : List String :=
  ["abstract", "accessor", "any", "as", "assert", "asserts", "async", "await", "bigint",
    "boolean", "constructor", "declare", "from", "get", "global", "implements", "infer",
    "interface", "intrinsic", "is", "keyof", "let", "meta", "module", "namespace", "never",
    "number", "object", "of", "out", "override", "package", "private", "protected", "public",
    "readonly", "require", "satisfies", "set", "static", "string", "symbol", "target", "type",
    "undefined", "unique", "unknown", "using", "yield"]

/-- Whether a word is reserved everywhere. -/
def isReserved (word : String) : Bool := reservedWords.contains word

/-- Whether messages name a word by itself rather than as an identifier. -/
def isKnownWord (word : String) : Bool := isReserved word || contextualWords.contains word

/-! ## Tokens -/

/-- How a piece of a template literal ends. -/
inductive TemplateEnd where
  /-- The literal ends here. -/
  | closed
  /-- A substitution follows. -/
  | hole
  deriving DecidableEq, Repr

/-- A token. -/
inductive Token where
  | punct (mark : Punct)
  | word (text : String)
  | string (value : Option String)
  | number (value : Binary64)
  | bigint (value : Nat)
  | regex (body flags : String)
  /-- A piece of a template literal with the first bad escape in it: its fault and its offset. -/
  | template (ending : TemplateEnd) (badEscape : Option (Fault × Nat))
  | ended
  /-- Text that is no token: what is wrong with it and where. -/
  | invalid (fault : Fault) (offset : Nat)
  deriving DecidableEq, Repr

/-- The name of a token in messages. -/
def Token.describe : Token → String
  | .punct mark => mark.text
  | .word text => if isKnownWord text then text else "ident"
  | .string _ => "string literal"
  | .number _ => "numeric literal"
  | .bigint _ => "bigint literal"
  | .regex _ _ => "regexp literal"
  | .template .. => "template literal"
  | .ended => "<eof>"
  | .invalid .. => "<lexing error>"

end StringHarvest.Script
