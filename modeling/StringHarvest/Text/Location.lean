import StringHarvest.Text.Width

/-!
# Lines and columns

The place of a character in a text. Line feeds, carriage returns and the pair of both end a line;
the separators U+2028 and U+2029 do not. A column counts the 16-bit units of what stands before it
on its line, with the display width of a character in place of its first unit.
-/

namespace StringHarvest

/-- A place in a text; lines and columns are counted from one. -/
structure Location where
  /-- The line. -/
  line : Nat
  /-- The column. -/
  column : Nat
  deriving DecidableEq, Repr

namespace Text

/-- How many columns a character takes: its display width, and one more outside the basic plane. -/
def columns (c : Char) : Nat := displayWidth c + (if c.toNat < 0x10000 then 0 else 1)

/-- The place that is `offset` characters behind a given one. -/
def locateFrom (line column : Nat) : (offset : Nat) → List Char → Location
  | 0, _ => ⟨line, column⟩
  | _, [] => ⟨line, column⟩
  | offset + 1, '\n' :: cs => locateFrom (line + 1) 1 offset cs
  | offset + 1, '\r' :: cs =>
    if cs.head? == some '\n' then locateFrom line column offset cs
    else locateFrom (line + 1) 1 offset cs
  | offset + 1, c :: cs => locateFrom line (column + columns c) offset cs

/-- The place of the character at an offset. -/
def locate (text : List Char) (offset : Nat) : Location := locateFrom 1 1 offset text

end Text

end StringHarvest
