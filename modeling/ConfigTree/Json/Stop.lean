/-!
# Where and why reading JSON stops

A reader works on what remains of a text. When it cannot go on, it says what is wrong and points
into the remaining text; from that and the whole text follow the line and the column. Columns count
bytes from the beginning of the line.
-/

namespace ConfigTree.Json

/-- What is wrong with a text. -/
inductive Problem where
  | endInValue
  | endInList
  | endInObject
  | endInString
  | valueExpected
  | wordExpected
  | listSeparatorExpected
  | objectSeparatorExpected
  | trailingComma
  | keyExpected
  | colonExpected
  | trailingCharacters
  | controlCharacter
  | invalidEscape
  | loneSurrogate
  | unfinishedSurrogate
  | tooDeep
  | invalidNumber
  | numberOutOfRange
  /-- A value of another type was expected. -/
  | invalidType (found expected : String)
  /-- A field of a fixed name is given again. -/
  | duplicateField (name : String)

/-- The text of a problem. -/
def Problem.message : Problem → String
  | .endInValue => "EOF while parsing a value"
  | .endInList => "EOF while parsing a list"
  | .endInObject => "EOF while parsing an object"
  | .endInString => "EOF while parsing a string"
  | .valueExpected => "expected value"
  | .wordExpected => "expected ident"
  | .listSeparatorExpected => "expected `,` or `]`"
  | .objectSeparatorExpected => "expected `,` or `\x7d`"
  | .trailingComma => "trailing comma"
  | .keyExpected => "key must be a string"
  | .colonExpected => "expected `:`"
  | .trailingCharacters => "trailing characters"
  | .controlCharacter =>
    "control character (\\u0000-\\u001F) found while parsing a string"
  | .invalidEscape => "invalid escape"
  | .loneSurrogate => "lone leading surrogate in hex escape"
  | .unfinishedSurrogate => "unexpected end of hex escape"
  | .tooDeep => "recursion limit exceeded"
  | .invalidNumber => "invalid number"
  | .numberOutOfRange => "number out of range"
  | .invalidType found expected => s!"invalid type: {found}, expected {expected}"
  | .duplicateField name => s!"duplicate field `{name}`"

/-- A problem, and the place behind a number of bytes of a remaining text. -/
structure Stop where
  problem : Problem
  remaining : List Char
  behind : Nat

/-- Stops at the next byte, which is the one that is wrong, or at the end of the text. -/
def stopAt {α : Type} (problem : Problem) (remaining : List Char) : Except Stop α :=
  .error ⟨problem, remaining, 1⟩

/-- Stops in front of the remaining text. -/
def stopBefore {α : Type} (problem : Problem) (remaining : List Char) : Except Stop α :=
  .error ⟨problem, remaining, 0⟩

/-- A line and a column. -/
structure Position where
  line : Nat
  column : Nat

/-- The position a number of bytes behind another one, or at the end of the text. -/
def Position.advance (position : Position) : Nat → List Char → Position
  | _, [] => position
  | bytes, c :: rest =>
    if bytes = 0 then position
    else if c = '\n' then advance ⟨position.line + 1, 0⟩ (bytes - 1) rest
    else advance ⟨position.line, position.column + min bytes c.utf8Size⟩ (bytes - c.utf8Size) rest

/-- The number of bytes of a text. -/
def byteSize (text : List Char) : Nat :=
  text.foldl (fun size c => size + c.utf8Size) 0

/-- Where in a whole text reading stops. -/
def Stop.position (text : List Char) (stop : Stop) : Position :=
  Position.advance ⟨1, 0⟩ (byteSize text - byteSize stop.remaining + stop.behind) text

/-- The text of a problem with its position. -/
def Stop.message (text : List Char) (stop : Stop) : String :=
  let position := stop.position text
  s!"{stop.problem.message} at line {position.line} column {position.column}"

end ConfigTree.Json
