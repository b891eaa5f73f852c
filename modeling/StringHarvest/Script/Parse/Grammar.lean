import StringHarvest.Script.Parse.Markup
import StringHarvest.Script.Parse.Modules

/-!
# Reading a whole script

The phrases of the grammar are functions of the record `Grammar` of the phrases below them.
`Grammar.ofDepth` ties the knot: a record of depth `n + 1` is made of the phrases over the record of
depth `n`, and the one of depth `0` reads nothing. Between two phrases of the record that stand
inside each other a token is passed, or one step is taken along a fixed chain of phrases; so a depth
that is a small multiple of the length of a text is enough for every text.
-/

namespace StringHarvest.Script

open StringHarvest.Script.Parser

/-- The phrases whose parts are those of a given record. -/
def Grammar.deepen (g : Grammar) : Grammar where
  assign := assignment g
  unary := Script.unary g
  binaryTail := Script.binaryTail g
  leftSide := Script.leftSide g
  newCallee := Script.newCallee g
  type := typePhrase g
  pattern := bindingPattern g
  element := markup g
  statement := Script.statement g
  item := moduleItem g
  namespaceBody := dottedNamespace g

/-- The phrases that may be nested up to a depth. -/
def Grammar.ofDepth (depth : Nat) : Grammar := Nat.repeat Grammar.deepen depth .exhausted

/-- The depth that is enough for a text of the given length. -/
def depthFor (length : Nat) : Nat := 8 * (length + 2)

/-- The items of a module up to the end of the text. -/
def moduleItems (g : Grammar) : Parser (List Item) :=
  repeating [] fun done => do
    if ← atEnd then pure (.inr done.reverse)
    else
      let next ← g.item
      pure (.inl (next :: done))

/-- Reads a script with or without types and markup. -/
def Program.parse (typescript jsx : Bool) (text : List Char) : Except Failure Program :=
  let context : Context := { typescript, jsx, bound := text.length + 2 }
  match moduleItems (Grammar.ofDepth (depthFor text.length)) context (State.first text) with
  | .done items _ => .ok ⟨items⟩
  | .failed failure _ => .error failure

end StringHarvest.Script
