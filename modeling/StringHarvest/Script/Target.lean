import StringHarvest.Script.Tree

/-!
# Expressions read as patterns

An array or object literal before `=` or `=>` turns out to be a pattern. The tests here decide that
on the finished expression: `patternFault` finds the first member that no pattern can hold, and
`isSimpleTarget` tells the expressions that a value can be assigned to.
-/

namespace StringHarvest.Script

mutual

/-- The offset of the first member, at any depth, that cannot be part of a pattern. -/
def Expr.patternFault : Expr → Option Nat
  | .array items => elementsFault items
  | .object members => membersFault members
  | _ => none

/-- `Expr.patternFault` over the items of an array. -/
def elementsFault : List Element → Option Nat
  | [] => none
  | .hole :: rest => elementsFault rest
  | .item value :: rest => (value.patternFault).or (elementsFault rest)
  | .spread value :: rest => (value.patternFault).or (elementsFault rest)

/-- `Expr.patternFault` over the members of an object. -/
def membersFault : List Member → Option Nat
  | [] => none
  | .keyed _ value :: rest => (value.patternFault).or (membersFault rest)
  | .shorthand _ :: rest => membersFault rest
  | .initialised _ _ :: rest => membersFault rest
  | .method start _ _ :: _ => some start
  | .accessor start _ _ :: _ => some start
  | .spread value :: rest => (value.patternFault).or (membersFault rest)

end

/-- Whether a value can be assigned to the expression without taking the value apart. -/
def Expr.isSimpleTarget : Expr → Bool
  | .name _ => true
  | .member .. => true
  | .superMember _ => true
  | .call _ _ _ optional => optional
  | .paren _ => true
  | .typed note _ => note != .constAssertion
  | _ => false

/-- Whether an expression is an array or object literal, which can be read as a pattern. -/
def Expr.isLiteralPattern : Expr → Bool
  | .array _ => true
  | .object _ => true
  | _ => false

/-- Whether an expression is an arrow function. -/
def Expr.isArrow : Expr → Bool
  | .arrow _ => true
  | _ => false

end StringHarvest.Script
