import ConfigTree.Binary

/-!
# Reading decimal text

A row of ASCII digits denotes a natural number; leading zeros do not count.

A floating-point number may have a sign in front. Then follow a word for an infinity or for no
number, in any mixture of cases, or digits with an optional point among them and an optional
exponent behind. At least one digit stands around the point and at least one in the exponent. The
result is the number of the format that is nearest to the decimal.
-/

namespace ConfigTree.Decimal

/-- The value of a digit; meant for the characters `0` to `9`. -/
def digitValue (digit : Char) : Nat :=
  digit.toNat - '0'.toNat

/-- Continues a number by a row of digits. -/
def appendDigits (number : Nat) (digits : List Char) : Nat :=
  digits.foldl (fun number digit => 10 * number + digitValue digit) number

/-- The number that a row of digits denotes. -/
def ofDigits (digits : List Char) : Nat :=
  appendDigits 0 digits

/-- Exponents of a first digit outside of these bounds lead to infinity or to zero in every format
of up to 64 bits. -/
def exponentBound : Int := 400

/-- The number of a format that is nearest to `digits * 10 ^ exponent`. -/
def toBinary (format : Binary.Format) (negative : Bool) (digits : Nat) (exponent : Int) :
    Binary.Number :=
  let first := exponent + (Nat.toDigits 10 digits).length
  let magnitude :=
    if digits = 0 || first < -exponentBound then format.nearest 0 1
    else if exponentBound < first then none
    else
      format.nearest (digits * Nat.pow 10 exponent.toNat) (Nat.pow 10 (-exponent).toNat)
  match magnitude with
  | some magnitude => .finite negative magnitude
  | none => .infinite negative

/-- Takes the sign off a text, and says whether it is a minus. -/
def takeSign : List Char → Bool × List Char
  | '-' :: rest => (true, rest)
  | '+' :: rest => (false, rest)
  | text => (false, text)

/-- The exponent at the end of a number: nothing for zero, or a letter, a sign and digits. -/
def readExponent : List Char → Option Int
  | [] => some 0
  | mark :: rest =>
    let (negative, digits) := takeSign rest
    if (mark = 'e' || mark = 'E') && digits ≠ [] && digits.all Char.isDigit then
      some (if negative then -(ofDigits digits : Int) else ofDigits digits)
    else none

/-- Reads a number without its sign. -/
def readUnsigned (format : Binary.Format) (negative : Bool) (text : List Char) :
    Option Binary.Number :=
  let word := text.map Char.toLower
  if word = "inf".toList || word = "infinity".toList then some (.infinite negative)
  else if word = "nan".toList then some .nan
  else
    let whole := text.takeWhile Char.isDigit
    let rest := text.dropWhile Char.isDigit
    let (fraction, rest) :=
      match rest with
      | '.' :: rest => (rest.takeWhile Char.isDigit, rest.dropWhile Char.isDigit)
      | rest => ([], rest)
    let digits := whole ++ fraction
    if digits = [] then none
    else match readExponent rest with
      | some exponent =>
        some (toBinary format negative (ofDigits digits) (exponent - fraction.length))
      | none => none

/-- Reads a decimal text as a number of a format. -/
def parse (format : Binary.Format) (text : List Char) : Option Binary.Number :=
  let (negative, text) := takeSign text
  readUnsigned format negative text

end ConfigTree.Decimal
