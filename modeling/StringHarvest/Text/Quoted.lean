import StringHarvest.Text.Printable

/-!
# Texts inside quotes

A text as it is shown in messages: between double quotes, with what is not printable escaped. Single
quotes are escaped as well where a path is shown.
-/

namespace StringHarvest.Text

/-- The hexadecimal digits of a code point between braces. -/
def codePointEscape (c : Char) : List Char :=
  "\\u\x7b".toList ++ Nat.toDigits 16 c.toNat ++ ['}']

/-- A character as it is shown. -/
def shown (escapeSingle : Bool) (c : Char) : List Char :=
  if c == '"' then ['\\', '"']
  else if c == '\\' then ['\\', '\\']
  else if c == '\n' then ['\\', 'n']
  else if c == '\r' then ['\\', 'r']
  else if c == '\t' then ['\\', 't']
  else if c.toNat == 0 then ['\\', '0']
  else if c == '\'' && escapeSingle then ['\\', '\'']
  else if isPrintable c then [c]
  else codePointEscape c

/-- A text as it is shown. -/
def quoted (text : String) : String :=
  String.ofList ('"' :: text.toList.flatMap (shown false) ++ ['"'])

/-- A path as it is shown. -/
def quotedPath (text : String) : String :=
  String.ofList ('"' :: text.toList.flatMap (shown true) ++ ['"'])

end StringHarvest.Text
