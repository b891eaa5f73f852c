import StringHarvest.Path.Basic

/-!
# Languages

The two languages that sources are written in, and what of a file name matters to them.
-/

namespace StringHarvest

/-- The language of a source. -/
inductive Language where
  | javascript
  | typescript
  deriving DecidableEq, Repr, Inhabited

namespace Language

/-- The name of a language. -/
def name : Language → String
  | .javascript => "javascript"
  | .typescript => "typescript"

/-- The language of a name. -/
def ofName? : String → Option Language
  | "javascript" => some .javascript
  | "typescript" => some .typescript
  | _ => none

/-- The extensions of files that are taken from a directory. -/
def extensions : Language → List String
  | .javascript => ["js", "jsx", "mjs", "cjs"]
  | .typescript => ["ts", "tsx", "mts", "cts"]

/-- Whether a file is taken from a directory. -/
def covers (language : Language) (path : Path) : Bool :=
  match path.extension? with
  | some extension => language.extensions.contains extension
  | none => false

/-- Whether a language has types. -/
def hasTypes : Language → Bool
  | .javascript => false
  | .typescript => true

/-- Whether markup is read in the file of the given name: in scripts unless their extension rules it
out, with types only in the files that are meant for it. -/
def hasMarkup (language : Language) (path : String) : Bool :=
  match language with
  | .javascript => !(path.endsWith ".mjs" || path.endsWith ".cjs")
  | .typescript => path.endsWith ".tsx"

end Language

end StringHarvest
