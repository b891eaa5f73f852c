import StringHarvest.Number.Binary64

/-!
# The syntax tree of a script

What the reader of scripts builds: expressions, statements, classes, declarations and module items.

Two kinds of text are read and checked but leave nothing in the tree, because nothing to translate
is ever looked for in them: types (annotations, interfaces, aliases, enumerations), and the places
that bind or test (parameters, binding and assignment patterns, loop heads).

Everything else is kept as written, in particular the **wrappers** that later stages look
through: parentheses (`Expr.paren`), type notes on an expression (`Expr.typed`), and the optional
form of a member access or a call. A call remembers the offset of its first character, because a
message is located by its call.
-/

namespace StringHarvest.Script

/-- A literal. The value of a string is missing when it holds half of a surrogate pair. -/
inductive Literal where
  | string (value : Option String)
  | number (value : Binary64)
  | boolean (value : Bool)
  | null
  | bigint (value : Nat)
  | regex (body flags : String)

/-- How a type stands at an expression without changing its value. -/
inductive TypeNote where
  /-- `e as T` -/
  | ascription
  /-- `e satisfies T` -/
  | satisfaction
  /-- `e!` -/
  | nonNull
  /-- `<T>e` -/
  | assertion
  /-- `e as const` and `<const>e` -/
  | constAssertion
  /-- `e<T>` -/
  | instantiation
  deriving DecidableEq

/-- The statements that run a body under a head. -/
inductive LoopKind where
  | whileLoop
  | doWhileLoop
  | forLoop
  | forInLoop
  | forOfLoop
  | withScope
  deriving DecidableEq

mutual

/-- An expression. -/
inductive Expr where
  | name (id : String)
  | literal (value : Literal)
  | this
  | array (items : List Element)
  | object (members : List Member)
  | template (holes : List Expr)
  | tagged (tag : Expr) (holes : List Expr)
  | member (object : Expr) (access : Access) (optional : Bool)
  /-- A member of the parent class, `super.x`. -/
  | superMember (access : Access)
  /-- A call; `start` is the offset of its first character. -/
  | call (start : Nat) (callee : Expr) (arguments : List Element) (optional : Bool)
  | superCall (start : Nat) (arguments : List Element)
  | importCall (start : Nat) (arguments : List Element)
  | new (callee : Expr) (arguments : List Element)
  | unary (operator : String) (operand : Expr)
  | update (operand : Expr)
  | await (operand : Expr)
  | yield (operand : Option Expr)
  | binary (operator : String) (left right : Expr)
  | assign (operator : String) (value : Expr)
  | conditional (test consequent alternate : Expr)
  | sequence (parts : List Expr)
  | function (body : Body)
  | arrow (body : Body)
  | classValue (body : Class)
  | jsxElement (attributes children : List JsxPart)
  | jsxFragment (children : List JsxPart)
  | paren (inner : Expr)
  | typed (note : TypeNote) (inner : Expr)
  /-- `import.meta` and `new.target`. -/
  | metaProperty (name : String)
  | privateName (id : String)
  /-- The place of an operand that could not be read. -/
  | missing

/-- What follows the owner in a member access. -/
inductive Access where
  | name (id : String)
  | privateName (id : String)
  | computed (value : Expr)

/-- An item of an array literal or of an argument list. -/
inductive Element where
  | hole
  | item (value : Expr)
  | spread (value : Expr)

/-- A member of an object literal; methods and accessors remember the offset
of their first character. -/
inductive Member where
  | keyed (key : Key) (value : Expr)
  | shorthand (id : String)
  /-- `a = 1` inside braces, which only a pattern may hold in the end. -/
  | initialised (id : String) (value : Expr)
  | method (start : Nat) (key : Key) (body : Body)
  | accessor (start : Nat) (key : Key) (body : Body)
  | spread (value : Expr)

/-- The name of a member. -/
inductive Key where
  | name (id : String)
  | string (value : Option String)
  | number (value : Binary64)
  | bigint (value : Nat)
  | computed (value : Expr)
  | privateName (id : String)

/-- The body of a function: none for a signature, a block, or the value of an arrow function. -/
inductive Body where
  | absent
  | block (statements : List Stmt)
  | value (result : Expr)

/-- The parent and the members of a class. -/
inductive Class where
  | mk (parent : Option Expr) (members : List ClassMember)

/-- A member of a class. -/
inductive ClassMember where
  /-- The function that sets up an instance. -/
  | initialiser (body : Body)
  | method (key : Key) (body : Body)
  | field (key : Key) (value : Option Expr)
  | accessor (key : Key) (value : Option Expr)
  | staticBlock (statements : List Stmt)
  /-- An index signature or a lone semicolon. -/
  | other

/-- An attribute or a child of a markup element; nested elements are values. -/
inductive JsxPart where
  | text
  | value (value : Expr)
  | spreadAttribute (value : Expr)
  | spreadChild (value : Expr)

/-- A statement. -/
inductive Stmt where
  | block (statements : List Stmt)
  | expression (value : Expr)
  | ifElse (test : Expr) (consequent : Stmt) (alternate : Option Stmt)
  | switch (subject : Expr) (cases : List Case)
  /-- A `try` statement with the blocks of its clauses. -/
  | tryCatch (block : List Stmt) (handler finalizer : Option (List Stmt))
  | returns (value : Option Expr)
  | throws (value : Expr)
  | labeled (label : String) (body : Stmt)
  | loop (kind : LoopKind) (body : Stmt)
  | declaration (declaration : Decl)
  | empty
  | debugger
  | breaks
  | continues

/-- A case of a `switch`; the default case has no test. -/
inductive Case where
  | mk (test : Option Expr) (consequent : List Stmt)

/-- A declaration. Of a variable only its initial value is kept. -/
inductive Decl where
  | variables (initials : List (Option Expr))
  | functionDecl (body : Body)
  | classDecl (body : Class)
  | namespaceDecl (body : NamespaceBody)
  /-- An interface, a type alias or an enumeration. -/
  | typeOnly

/-- The body of a namespace: none for an ambient one, items, or a further dotted segment. -/
inductive NamespaceBody where
  | absent
  | items (items : List Item)
  | nested (inner : NamespaceBody)

/-- An item of a module. -/
inductive Item where
  | statement (statement : Stmt)
  | exportDecl (declaration : Decl)
  | exportDefaultFunction (body : Body)
  | exportDefaultClass (body : Class)
  | exportDefaultInterface
  | exportDefaultValue (value : Expr)
  /-- `export = e` -/
  | exportAssign (value : Expr)
  | imports
  /-- An export list, a re-export, an import alias or a namespace export. -/
  | link

end

instance : Inhabited Expr := ⟨.missing⟩
instance : Inhabited Element := ⟨.hole⟩
instance : Inhabited Access := ⟨.name ""⟩
instance : Inhabited Key := ⟨.name ""⟩
instance : Inhabited Body := ⟨.absent⟩
instance : Inhabited Class := ⟨.mk none []⟩
instance : Inhabited Stmt := ⟨.empty⟩
instance : Inhabited Decl := ⟨.typeOnly⟩
instance : Inhabited Item := ⟨.link⟩

/-- A whole script or module. -/
structure Program where
  /-- The items from first to last. -/
  items : List Item

end StringHarvest.Script
