import StringHarvest.Catalog.Basic

/-!
# Templates

The text of a catalog as a gettext template: a line that says when it was made, and a block for
every message. Quotes inside a text are escaped and nothing else is.
-/

namespace StringHarvest.Template

/-- The name of the program in the first line. -/
def programName : String := "jsgettext"

/-- Puts a backslash before every quote. -/
def escapeQuotes : List Char → List Char
  | [] => []
  | c :: cs => if c == '"' then '\\' :: '"' :: escapeQuotes cs else c :: escapeQuotes cs

/-- A text between quotes. -/
def quote (text : String) : String := String.ofList ('"' :: escapeQuotes text.toList ++ ['"'])

/-- The block of a message. -/
def block (m : Message) : String :=
  "msgid " ++ quote m.singular ++ "\n"
    ++ (if m.hasPlural then
          "msgid_plural " ++ quote m.plural ++ "\n" ++ "msgstr[0] " ++ quote m.message ++ "\n"
        else "msgstr " ++ quote m.message ++ "\n")

/-- The first line and the empty line behind it. -/
def header (generatedAt : String) : String :=
  "# Generated by " ++ programName ++ " on " ++ generatedAt ++ "\n\n"

/-- The template of a catalog. -/
def render (catalog : Catalog) (generatedAt : String) : String :=
  header generatedAt ++ "\n".intercalate (catalog.messages.map block)

end StringHarvest.Template
