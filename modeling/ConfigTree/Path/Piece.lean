import ConfigTree.Decimal.Parse
import ConfigTree.Fault
import ConfigTree.Path.Segment
import ConfigTree.Text.Basic

/-!
# Pieces of a path

A path is cut at its dots. The blanks around a piece do not count and empty pieces are skipped. A
piece in brackets is a position; a piece that ends in a bracket is a name followed by a position;
any other piece is a name, whatever characters it has.
-/

namespace ConfigTree

/-- What is wrong with a bracket in a path. -/
inductive BadBracket where
  /-- Nothing is between the brackets. -/
  | empty
  /-- Something other than digits is between the brackets. -/
  | notDigits (inner : String)
  /-- The number between the brackets has more than 64 bits. -/
  | tooLarge (inner : String)
  deriving DecidableEq

namespace BadBracket

/-- The bracket as it stands in the path. -/
def text : BadBracket → String
  | .empty => "[]"
  | .notDigits inner | .tooLarge inner => s!"[{inner}]"

/-- The fault of a path with this bracket. -/
def fault (path : String) (bad : BadBracket) : Fault :=
  match bad with
  | .empty =>
    { kind := .pathSyntax path bad.text "Empty array index"
      hint := some "Put a non-negative integer between the brackets, e.g. [0]"
      code := some 101 }
  | .notDigits inner =>
    { kind := .pathSyntax path bad.text s!"Array index '{inner}' is not a non-negative integer"
      hint := some "Only digits are allowed between the brackets"
      code := some 102 }
  | .tooLarge inner =>
    { kind := .pathSyntax path bad.text
        s!"Array index '{inner}' is out of range: number too large to fit in target type"
      code := some 103 }

end BadBracket

namespace Path

/-- The pieces of a path: cut at dots, trimmed, the empty ones left out. -/
def pieces (path : List Char) : List (List Char) :=
  ((path.splitOn '.').map Text.trim).filter (· ≠ [])

/-- The position that a text between brackets denotes. -/
def readPosition (inner : List Char) : Except BadBracket Nat :=
  if inner = [] then .error .empty
  else if inner.all Char.isDigit then
    let position := Decimal.ofDigits inner
    if position < UInt64.size then .ok position else .error (.tooLarge (.ofList inner))
  else .error (.notDigits (.ofList inner))

/-- Cuts a text in front of the last occurrence of a mark and drops the mark. -/
def cutAtLast (mark : Char) : List Char → Option (List Char × List Char)
  | [] => none
  | c :: rest =>
    match cutAtLast mark rest with
    | some (before, behind) => some (c :: before, behind)
    | none => if c = mark then some ([], rest) else none

/-- The segments that one trimmed piece stands for: one, or a name with a position behind it. -/
def readPiece (piece : List Char) : Except BadBracket (Segment × Option Segment) :=
  if piece.getLast? = some ']' then
    if piece.head? = some '[' then do
      let position ← readPosition piece.tail.dropLast
      return (.index position, none)
    else match cutAtLast '[' piece with
      | some (name, bracket) => do
        let position ← readPosition bracket.dropLast
        return (.key (.ofList name), some (.index position))
      | none => .ok (.key (.ofList piece), none)
  else .ok (.key (.ofList piece), none)

/-- Reads pieces in order: the segments before the first malformed piece, and what is wrong there.
A malformed piece contributes nothing, not even its name. -/
def readPieces : List (List Char) → List Segment × Option BadBracket
  | [] => ([], none)
  | piece :: rest =>
    match readPiece piece with
    | .error bad => ([], some bad)
    | .ok (first, second) =>
      let (segments, bad) := readPieces rest
      (first :: second.toList ++ segments, bad)

/-- All segments of a path, unless a piece is malformed. -/
def tokenize (path : String) : Except Fault (List Segment) :=
  match readPieces (pieces path.toList) with
  | (segments, none) => .ok segments
  | (_, some bad) => .error (bad.fault path)

/-- Whether a path is written as the root: blank, or a single dot. Further dots lead to the root
as well, but are not recognised here. -/
def isRoot (path : String) : Bool :=
  let path := Text.trim path.toList
  path = [] || path = ['.']

end Path

end ConfigTree
