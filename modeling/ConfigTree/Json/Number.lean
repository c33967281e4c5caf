import ConfigTree.Decimal.Parse
import ConfigTree.Decimal.Shortest
import ConfigTree.Json.Literal

/-!
# Numbers of JSON

A number is first taken apart into its rows of digits. Integers of 64 bits are kept exactly. Every
other number becomes a floating-point number of 64 bits: its digits are gathered in an integer of
64 bits as long as they fit, further digits only move the point, and the result is multiplied or
divided by a power of ten that is itself rounded. It may therefore differ from the nearest number in
the last place. A number is shown by the digits of the integer, or by the shortest decimal that
reads back.
-/

namespace ConfigTree.Json

/-- The exponent of a number as it is written. -/
structure WrittenExponent where
  /-- Whether a minus stands in front. -/
  down : Bool
  digits : List Char

/-- A number as it is written, without its sign. -/
structure WrittenNumber where
  whole : List Char
  /-- The digits behind the point; none if there is no point. -/
  fraction : List Char
  exponent : Option WrittenExponent

/-- Takes a row of digits, at least one. The problem at the end of the text is up to the caller. -/
def readDigits (atEnd : Problem) (text : List Char) : Except Stop (List Char × Rest text) :=
  match text with
  | [] => stopAt atEnd []
  | c :: rest =>
    if c.isDigit then
      .ok (c :: rest.takeWhile Char.isDigit, (RestAfter.dropWhile Char.isDigit rest).behind c)
    else stopAt .invalidNumber (c :: rest)

/-- Takes a point and the digits behind it, if there is a point. -/
def readFraction (atEnd : Problem) (text : List Char) :
    Except Stop (List Char × RestAfter text) :=
  match text with
  | '.' :: text => do
    let (digits, rest) ← readDigits atEnd text
    return (digits, (rest.behind '.').maybe)
  | text => .ok ([], .all text)

/-- Takes the sign off the digits of an exponent. -/
def readExponentSign (text : List Char) : Bool × RestAfter text :=
  match text with
  | '+' :: rest => (false, (Rest.tail '+' rest).maybe)
  | '-' :: rest => (true, (Rest.tail '-' rest).maybe)
  | text => (false, .all text)

/-- Takes an exponent behind its letter. -/
def readExponentDigits (atEnd : Problem) (text : List Char) :
    Except Stop (WrittenExponent × Rest text) := do
  let (down, rest) := readExponentSign text
  let (digits, after) ← readDigits atEnd rest.text
  return (⟨down, digits⟩, rest.andThen after)

/-- Takes an exponent, if there is its letter. -/
def readExponent (atEnd : Problem) (text : List Char) :
    Except Stop (Option WrittenExponent × RestAfter text) :=
  match text with
  | [] => .ok (none, .all [])
  | c :: text =>
    if c = 'e' ∨ c = 'E' then do
      let (exponent, rest) ← readExponentDigits atEnd text
      return (some exponent, (rest.behind c).maybe)
    else .ok (none, .all (c :: text))

/-- Takes a number behind its sign. Only the number zero begins with the digit zero. -/
def readWritten (atEnd : Problem) (text : List Char) : Except Stop (WrittenNumber × Rest text) := do
  let (whole, behindWhole) ← readDigits atEnd text
  match whole with
  | '0' :: digit :: more => stopAt .invalidNumber (digit :: more ++ behindWhole.text)
  | whole =>
    let (fraction, behindFraction) ← readFraction atEnd behindWhole.text
    let rest := behindWhole.andMaybe behindFraction
    let (exponent, behindExponent) ← readExponent atEnd rest.text
    return (⟨whole, fraction, exponent⟩, rest.andMaybe behindExponent)

/-- A number as it is kept. -/
inductive Number where
  | natural (value : Nat)
  /-- The negative of a positive integer. -/
  | negative (value : Nat)
  | float (minus : Bool) (magnitude : Binary.Magnitude)

/-- Floating-point numbers are plain from `0.00001` to below `10 ^ 16`. -/
def floatLayout : Decimal.Layout where
  leastPlain := -5
  largestPlain := 15

/-- The text of a floating-point number. -/
def floatText (minus : Bool) (magnitude : Binary.Magnitude) : String :=
  let digits :=
    if magnitude.significand = 0 then ['0', '.', '0']
    else floatLayout.write (Decimal.shortest Binary.double magnitude)
  .ofList (if minus then '-' :: digits else digits)

/-- The text of a number. -/
def Number.text : Number → String
  | .natural value => toString value
  | .negative value => s!"-{value}"
  | .float minus magnitude => floatText minus magnitude

/-- Gathers digits behind a significand as long as it has 64 bits, and says which are left. -/
def gather (significand : Nat) : List Char → Nat × List Char
  | [] => (significand, [])
  | digit :: rest =>
    let next := 10 * significand + Decimal.digitValue digit
    if next < UInt64.size then gather next rest else (significand, digit :: rest)

/-- Gathers the digits of an exponent; those that no longer fit into 31 bits are left. -/
def gatherExponent (exponent : Nat) : List Char → Nat × List Char
  | [] => (exponent, [])
  | digit :: rest =>
    let next := 10 * exponent + Decimal.digitValue digit
    if next < Nat.pow 2 31 then gatherExponent next rest else (exponent, digit :: rest)

/-- The floating-point zero. -/
def floatZero : Binary.Magnitude where
  significand := 0
  exponent := Binary.double.least

/-- The floating-point number nearest to a natural number. Those that come up here, integers of
64 bits and powers of ten with exponents up to 308, are not too large. -/
def ofNatural (value : Nat) : Binary.Magnitude :=
  (Binary.double.nearest value 1).getD floatZero

/-- Divides by a power of ten, by at most `10 ^ 308` at a time. -/
def divideByPower (magnitude : Binary.Magnitude) (exponent : Nat) : Option Binary.Magnitude :=
  if magnitude.significand = 0 then some magnitude
  else if exponent ≤ 308 then Binary.double.divide magnitude (ofNatural (Nat.pow 10 exponent))
  else do
    let quotient ← Binary.double.divide magnitude (ofNatural (Nat.pow 10 308))
    divideByPower quotient (exponent - 308)
termination_by exponent

/-- The floating-point number of a significand and an exponent of ten, unless it is too large. -/
def scale (significand : Nat) (exponent : Int) : Option Binary.Magnitude :=
  let magnitude := ofNatural significand
  if exponent < 0 then divideByPower magnitude exponent.natAbs
  else if magnitude.significand = 0 then some magnitude
  else if 308 < exponent then none
  else Binary.double.multiply magnitude (ofNatural (Nat.pow 10 exponent.natAbs))

/-- The number of a significand and an exponent, in front of the remaining text. -/
def scaled (minus : Bool) (significand : Nat) (exponent : Int) (rest : List Char) :
    Except Stop Number :=
  match scale significand exponent with
  | some magnitude => .ok (.float minus magnitude)
  | none => stopBefore .numberOutOfRange rest

/-- The number of a whole number that is written without point and exponent. -/
def wholeNumber (minus : Bool) (digits rest : List Char) : Except Stop Number :=
  let (significand, excess) := gather 0 digits
  if excess ≠ [] then scaled minus significand excess.length rest
  else if !minus then .ok (.natural significand)
  else if significand = 0 || Nat.pow 2 63 < significand then
    .ok (.float true (ofNatural significand))
  else .ok (.negative significand)

/-- The number of a significand, an exponent of ten and the exponent that is written. An exponent
that does not fit into 31 bits makes the number zero or too large. -/
def withExponent (minus : Bool) (significand : Nat) (exponent : Int) (written : WrittenExponent)
    (rest : List Char) : Except Stop Number :=
  match gatherExponent 0 written.digits with
  | (value, []) =>
    scaled minus significand (if written.down then exponent - value else exponent + value) rest
  | (_, excess) =>
    if significand ≠ 0 && !written.down then stopAt .numberOutOfRange (excess ++ rest)
    else .ok (.float minus floatZero)

/-- The number that is written in front of the remaining text. -/
def WrittenNumber.number (minus : Bool) (written : WrittenNumber) (rest : List Char) :
    Except Stop Number :=
  let (significand, excess) := gather 0 written.whole
  let (gathered, left) := gather significand written.fraction
  let exponent : Int := excess.length - (written.fraction.length - left.length : Nat)
  match written.exponent with
  | some exponentWritten => withExponent minus gathered exponent exponentWritten rest
  | none =>
    if written.fraction = [] then wholeNumber minus written.whole rest
    else scaled minus gathered exponent rest

/-- Reads a number, behind its sign. -/
def readNumber (minus : Bool) (text : List Char) : Except Stop (Number × Rest text) := do
  let (written, rest) ← readWritten .endInValue text
  return (← written.number minus rest.text, rest)

end ConfigTree.Json
