/-!
# Glob patterns

A pattern is a text in which `?` stands for any character, `*` for any characters, `[...]` for one
of some characters, `[!...]` for one of all others, and `**`, which must fill a whole segment of a
path, for directories at any depth.
-/

namespace StringHarvest.Glob

/-- Characters named between brackets. -/
inductive CharSet where
  | one (c : Char)
  | range (first last : Char)
  deriving DecidableEq, Repr

/-- Whether a character is among the named ones. -/
def CharSet.holds (c : Char) : CharSet → Bool
  | .one x => c == x
  | .range first last => first ≤ c && c ≤ last

/-- A piece of a pattern. -/
inductive Piece where
  | char (c : Char)
  | anyChar
  | anySequence
  | anyDirectories
  | oneOf (sets : List CharSet)
  | noneOf (sets : List CharSet)
  deriving DecidableEq, Repr

/-- Why a text is no pattern. -/
inductive Cause where
  | invalidRange
  | tooManyStars
  | notAWholeSegment
  deriving DecidableEq, Repr

/-- The wording of a cause. -/
def Cause.message : Cause → String
  | .invalidRange => "invalid range pattern"
  | .tooManyStars => "wildcards are either regular `*` or recursive `**`"
  | .notAWholeSegment => "recursive wildcards must form a single path component"

/-- A cause and the position in the text, counted in characters. -/
structure PatternError where
  /-- The position. -/
  position : Nat
  /-- The cause. -/
  cause : Cause
  deriving DecidableEq, Repr

/-- The wording of a pattern error. -/
def PatternError.message (e : PatternError) : String :=
  "Pattern syntax error near position " ++ toString e.position ++ ": " ++ e.cause.message

/-! ## Reading -/

/-- The characters that the text between brackets names. -/
def charSets : List Char → List CharSet
  | first :: '-' :: last :: rest => .range first last :: charSets rest
  | c :: rest => .one c :: charSets rest
  | [] => []

/-- The text before the first closing bracket and the text behind it. -/
def untilBracket (cs : List Char) : Option (List Char × List Char) :=
  match cs.dropWhile (· != ']') with
  | [] => none
  | _ :: rest => some (cs.takeWhile (· != ']'), rest)

/-- The piece that an opening bracket, passed before, starts; and the text behind it. The first
named character may be a closing bracket. -/
def bracketPiece? : List Char → Option (Piece × List Char)
  | '!' :: c :: rest =>
    (untilBracket rest).map fun (named, rest) => (.noneOf (charSets (c :: named)), rest)
  | '!' :: [] => none
  | c :: rest => (untilBracket rest).map fun (named, rest) => (.oneOf (charSets (c :: named)), rest)
  | [] => none

/-- The pieces of a text from a position on; `before` is the character before it. The first argument
bounds the number of steps, every one of which takes a character. -/
def piecesFrom :
    Nat → (position : Nat) → (before : Option Char) → List Char → Except PatternError (List Piece)
  | 0, _, _, _ => .ok []
  | _, _, _, [] => .ok []
  | bound + 1, position, before, '*' :: rest => do
    let stars := 1 + (rest.takeWhile (· == '*')).length
    let after := rest.dropWhile (· == '*')
    if stars == 1 then
      return .anySequence :: (← piecesFrom bound (position + 1) (some '*') after)
    else if 2 < stars then .error ⟨position + 2, .tooManyStars⟩
    else if before.isSome && before != some '/' then .error ⟨position - 1, .notAWholeSegment⟩
    else
      match after with
      | [] => return [.anyDirectories]
      | '/' :: rest => return .anyDirectories :: (← piecesFrom bound (position + 3) (some '/') rest)
      | _ => .error ⟨position + 2, .notAWholeSegment⟩
  | bound + 1, position, _, '?' :: rest => do
    return .anyChar :: (← piecesFrom bound (position + 1) (some '?') rest)
  | bound + 1, position, _, '[' :: rest =>
    match bracketPiece? rest with
    | none => .error ⟨position, .invalidRange⟩
    | some (piece, after) => do
      return piece ::
        (← piecesFrom bound (position + 1 + (rest.length - after.length)) (some ']') after)
  | bound + 1, position, _, c :: rest => do
    return .char c :: (← piecesFrom bound (position + 1) (some c) rest)

/-- The pieces of a pattern. -/
def pieces (text : String) : Except PatternError (List Piece) :=
  piecesFrom (text.length + 1) 0 none text.toList

/-- Whether a text is a pattern rather than a literal path. -/
def isPattern (text : String) : Bool := text.toList.contains '*' || text.toList.contains '?'

/-! ## Matching -/

/-- Whether one character fits a piece. -/
def Piece.fits (c : Char) : Piece → Bool
  | .char x => c == x
  | .anyChar => true
  | .oneOf sets => sets.any (·.holds c)
  | .noneOf sets => !sets.any (·.holds c)
  | .anySequence => false
  | .anyDirectories => false

/-- The ends of a list, from the whole list to the empty one. -/
def suffixes : List Char → List (List Char)
  | [] => [[]]
  | c :: cs => (c :: cs) :: suffixes cs

/-- Whether a name fits the pieces of a segment. -/
def fitsAll : List Piece → List Char → Bool
  | [], cs => cs.isEmpty
  | .anySequence :: rest, cs => (suffixes cs).any (fitsAll rest)
  | .anyDirectories :: rest, cs => (suffixes cs).any (fitsAll rest)
  | piece :: rest, cs =>
    match cs with
    | [] => false
    | c :: cs => piece.fits c && fitsAll rest cs

/-! ## Segments -/

/-- A pattern for one segment of a path. -/
structure Segment where
  /-- Its text. -/
  text : String
  /-- Its pieces. -/
  pieces : List Piece

namespace Segment

/-- The segment of a text. -/
def parse (text : String) : Except PatternError Segment := do
  return ⟨text, ← Glob.pieces text⟩

/-- Whether a segment stands for directories at any depth. -/
def isRecursive (s : Segment) : Bool := s.pieces.contains .anyDirectories

/-- Whether a segment stands for itself alone. -/
def isLiteral (s : Segment) : Bool := !s.text.toList.any fun c => c == '?' || c == '*' || c == '['

/-- Whether a name fits. -/
def fits (s : Segment) (name : String) : Bool := fitsAll s.pieces name.toList

/-- Whether a segment starts with a dot; only such a segment may stand for `.` or `..`. -/
def startsWithDot (s : Segment) : Bool := s.pieces.head? == some (.char '.')

end Segment

end StringHarvest.Glob
