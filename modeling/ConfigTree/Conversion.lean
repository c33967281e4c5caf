import ConfigTree.Decimal.Parse
import ConfigTree.Dictionary.Lookup

/-!
# Typed values

A conversion reads a looked-up scalar, a text or null, as a value of a type. Blanks around numbers
and truth values do not count. Null converts to an optional type only. A fault quotes the whole
text; which path it came from is filled in by the lookup.
-/

namespace ConfigTree

/-- A way to read a scalar as a value of a type. -/
abbrev Conversion (α : Type) := Option String → Except Fault α

namespace Conversion

/-- The fault of a scalar that does not read as the target type. -/
def fault (scalar : Option String) (target hint : String) (code : Nat) : Fault :=
  let value := match scalar with
    | some text => s!"'{text}'"
    | none => "null"
  { kind := .conversion "" value target, hint := some hint, code := some code }

/-- Reads any text as itself. -/
def text : Conversion String
  | some text => .ok text
  | none => .error (fault none "String" "Use Option<String> to accept null values" 401)

/-- Reads a text with a partial function. -/
def ofReader {α : Type} (read : List Char → Option α) (target hint : String) (code : Nat) :
    Conversion α := fun scalar =>
  match scalar.bind fun text => read (Text.trim text.toList) with
  | some value => .ok value
  | none => .error (fault scalar target hint code)

/-- The truth value of a word, in any mixture of cases. -/
def readBoolean (text : List Char) : Option Bool :=
  let word := String.ofList (text.map Char.toLower)
  if word ∈ ["true", "yes", "on", "1"] then some true
  else if word ∈ ["false", "no", "off", "0"] then some false
  else none

/-- Reads a truth value. -/
def boolean : Conversion Bool :=
  ofReader readBoolean "bool" "Use true/false, yes/no, on/off or 1/0" 404

/-- Reads a floating-point number. -/
def float (format : Binary.Format) : Conversion Binary.Number :=
  ofReader (Decimal.parse format) format.name "Use a decimal number such as 1.5" 403

/-- Reads null as nothing and leaves any text to another conversion. -/
def optional {α : Type} (conversion : Conversion α) : Conversion (Option α)
  | none => .ok none
  | some text => (conversion (some text)).map some

end Conversion

/-- A type of integers of fixed width. -/
structure IntegerType where
  name : String
  signed : Bool
  bits : Nat

namespace IntegerType

/-- The types that integers are read as. Those named for a size have the width of an address. -/
def all : List IntegerType :=
  [⟨"i8", true, 8⟩, ⟨"i16", true, 16⟩, ⟨"i32", true, 32⟩, ⟨"i64", true, 64⟩, ⟨"i128", true, 128⟩,
    ⟨"isize", true, 64⟩, ⟨"u8", false, 8⟩, ⟨"u16", false, 16⟩, ⟨"u32", false, 32⟩,
    ⟨"u64", false, 64⟩, ⟨"u128", false, 128⟩, ⟨"usize", false, 64⟩]

/-- The least integer of a type. -/
def least (type : IntegerType) : Int :=
  if type.signed then -(Nat.pow 2 (type.bits - 1) : Int) else 0

/-- The largest integer of a type. -/
def largest (type : IntegerType) : Int :=
  Nat.pow 2 (if type.signed then type.bits - 1 else type.bits) - (1 : Int)

/-- The number that one or more digits denote. -/
def readNatural (text : List Char) : Option Nat :=
  if text ≠ [] && text.all Char.isDigit then some (Decimal.ofDigits text) else none

/-- The integer of a type that a text denotes: digits behind an optional sign, where a minus is for
signed types only. -/
def read (type : IntegerType) (text : List Char) : Option Int := do
  let number : Int ← match text with
    | '+' :: digits => (readNatural digits).map Int.ofNat
    | '-' :: digits =>
      if type.signed then (readNatural digits).map fun number => -Int.ofNat number else none
    | digits => (readNatural digits).map Int.ofNat
  if type.least ≤ number && number ≤ type.largest then some number else none

end IntegerType

namespace Conversion

/-- Reads an integer of a type. -/
def integer (type : IntegerType) : Conversion Int :=
  ofReader type.read type.name "Use an integer within the range of the target type" 402

end Conversion

namespace Dictionary

variable {α : Type} (dictionary : Dictionary) (conversion : Conversion α)

/-- The value at a path, read as a type. -/
def getAs (path : String) : Except Fault α := do
  let scalar ← dictionary.get path
  (conversion scalar).mapError (·.withPath path)

/-- Like `getAs`, with a value for a path that does not exist. -/
def getAsOr (path : String) (default : α) : Except Fault α :=
  match dictionary.get path with
  | .ok scalar => (conversion scalar).mapError (·.withPath path)
  | .error fault => if fault.isNotFound then .ok default else .error fault

end Dictionary

end ConfigTree
