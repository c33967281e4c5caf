import ConfigTree.Json.Rest
import ConfigTree.Json.Stop

/-!
# Words and strings of JSON

The leaves of a JSON text that are not numbers. Strings are read character by character, where an
escape counts as the character that it stands for.
-/

namespace ConfigTree.Json

/-- Takes the given characters off a text. -/
def readWord : (word text : List Char) → Except Stop (RestAfter text)
  | [], text => .ok (.all text)
  | _ :: _, [] => stopAt .endInValue []
  | expected :: word, c :: text =>
    if c = expected then do
      let rest ← readWord word text
      return (rest.behind c).maybe
    else stopAt .wordExpected (c :: text)

/-- The value of a hexadecimal digit. -/
def hexValue? (c : Char) : Option Nat :=
  if c.isDigit then some (c.toNat - '0'.toNat)
  else if 'a' ≤ c ∧ c ≤ 'f' then some (c.toNat - 'a'.toNat + 10)
  else if 'A' ≤ c ∧ c ≤ 'F' then some (c.toNat - 'A'.toNat + 10)
  else none

/-- The number of four hexadecimal digits. -/
def hexQuad? (a b c d : Char) : Option Nat := do
  return (((← hexValue? a) * 16 + (← hexValue? b)) * 16 + (← hexValue? c)) * 16 + (← hexValue? d)

/-- Reads four hexadecimal digits. Four bytes are looked at as a whole. -/
def readHex (text : List Char) : Except Stop (Nat × Rest text) :=
  match text with
  | a :: b :: c :: d :: rest =>
    match hexQuad? a b c d with
    | some code => .ok (code, (((Rest.tail d rest).behind c).behind b).behind a)
    | none => .error ⟨.invalidEscape, a :: b :: c :: d :: rest, 4⟩
  | text =>
    if byteSize text < 4 then stopAt .endInString [] else .error ⟨.invalidEscape, text, 4⟩

/-- Whether a code unit is the first half of a surrogate pair. -/
def isHighSurrogate (unit : Nat) : Bool :=
  0xD800 ≤ unit && unit ≤ 0xDBFF

/-- Whether a code unit is the second half of a surrogate pair. -/
def isLowSurrogate (unit : Nat) : Bool :=
  0xDC00 ≤ unit && unit ≤ 0xDFFF

/-- The character of a surrogate pair. -/
def combineSurrogates (high low : Nat) : Char :=
  .ofNat (0x10000 + (high - 0xD800) * 0x400 + (low - 0xDC00))

/-- Reads the second half of a surrogate pair. -/
def readLowSurrogate (high : Nat) (text : List Char) : Except Stop (Char × Rest text) :=
  match text with
  | [] => stopAt .endInString []
  | '\\' :: [] => stopAt .endInString []
  | '\\' :: 'u' :: text => do
    let (low, rest) ← readHex text
    if isLowSurrogate low then
      return (combineSurrogates high low, (rest.behind 'u').behind '\\')
    else stopBefore .loneSurrogate rest.text
  | '\\' :: rest => stopAt .unfinishedSurrogate rest
  | text => stopAt .unfinishedSurrogate text

/-- Reads the character of a hexadecimal escape, behind its letter. -/
def readUnicode (text : List Char) : Except Stop (Char × Rest text) := do
  let (unit, rest) ← readHex text
  if isLowSurrogate unit then stopBefore .loneSurrogate rest.text
  else if isHighSurrogate unit then
    let (c, after) ← readLowSurrogate unit rest.text
    return (c, rest.andThen after)
  else return (.ofNat unit, rest)

/-- The character that an escape of one letter stands for. -/
def simpleEscape? : Char → Option Char
  | '"' => some '"'
  | '\\' => some '\\'
  | '/' => some '/'
  | 'b' => some '\x08'
  | 'f' => some '\x0c'
  | 'n' => some '\n'
  | 'r' => some '\r'
  | 't' => some '\t'
  | _ => none

/-- Whether a character stands in a string as an escape only. -/
def isControl (c : Char) : Bool :=
  c.toNat < 0x20

/-- Reads one character of a string, or its end. -/
def readUnit (text : List Char) : Except Stop (Option Char × Rest text) :=
  match text with
  | [] => stopAt .endInString []
  | '"' :: rest => .ok (none, .tail '"' rest)
  | '\\' :: [] => stopAt .endInString []
  | '\\' :: 'u' :: text => do
    let (c, rest) ← readUnicode text
    return (some c, (rest.behind 'u').behind '\\')
  | '\\' :: letter :: rest =>
    match simpleEscape? letter with
    | some c => .ok (some c, (Rest.tail letter rest).behind '\\')
    | none => stopAt .invalidEscape (letter :: rest)
  | c :: rest =>
    if isControl c then stopAt .controlCharacter (c :: rest) else .ok (some c, .tail c rest)

/-- Reads the rest of a string, behind its opening quote. -/
def readString (text : List Char) : Except Stop (List Char × Rest text) := do
  match ← readUnit text with
  | (none, rest) => return ([], rest)
  | (some c, rest) =>
    let (content, after) ← readString rest.text
    return (c :: content, rest.andThen after)
termination_by text.length
decreasing_by exact rest.shorter

end ConfigTree.Json
