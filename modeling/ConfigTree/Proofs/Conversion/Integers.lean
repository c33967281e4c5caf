import ConfigTree.Conversion
import ConfigTree.Proofs.Decimal.Digits
import ConfigTree.Proofs.Text.Trim

/-!
# Integers are read exactly

A numeral is one or more digits, behind a plus or, for signed types, a minus. It may
have any number of digits and of zeros in front. What it denotes is said here without
the reader, and so is the range of a type, through its width alone.

A text is read as an integer of a type exactly if it is a numeral between blanks and
the type holds what it denotes; this carries over to typed lookups, where a fault
quotes the whole text and names the path that was asked for.
-/

namespace ConfigTree

namespace IntegerType

/-- A text is an integer in decimal. -/
inductive Numeral (signed : Bool) : List Char → Int → Prop where
  | plain {digits : List Char} {number : Nat} (denotes : Decimal.Denotes digits number) :
      Numeral signed digits number
  | plus {digits : List Char} {number : Nat} (denotes : Decimal.Denotes digits number) :
      Numeral signed ('+' :: digits) number
  | minus {digits : List Char} {number : Nat} (isSigned : signed = true)
      (denotes : Decimal.Denotes digits number) : Numeral signed ('-' :: digits) (-number)

/-- The width of a type has room for an integer. One bit of a signed type is for the sign. -/
def Holds (type : IntegerType) (number : Int) : Prop :=
  match type.signed with
  | true => -(Nat.pow 2 (type.bits - 1) : Int) ≤ number ∧ number < Nat.pow 2 (type.bits - 1)
  | false => 0 ≤ number ∧ number < Nat.pow 2 type.bits

/-- A text is an integer of a type, between blanks. -/
structure Spells (type : IntegerType) (text : String) (number : Int) : Prop where
  numeral : Numeral type.signed (Text.trim text.toList) number
  holds : type.Holds number

/-- The fault of a text at a path that is not an integer of a type. -/
def misread (type : IntegerType) (path text : String) : Fault where
  kind := .conversion path s!"'{text}'" type.name
  hint := some "Use an integer within the range of the target type"
  code := some 402

/-- A result is the integer that a text spells, or else the fault of a text that spells none. -/
structure Answers (type : IntegerType) (path text : String) (result : Except Fault Int) :
    Prop where
  reads : ∀ number, result = .ok number ↔ type.Spells text number
  refuses : ∀ fault, result = .error fault ↔
    (∀ number, ¬ type.Spells text number) ∧ fault = type.misread path text

variable {type : IntegerType} {signed : Bool} {text digits : List Char} {number : Int}

theorem holds_iff : type.Holds number ↔ type.least ≤ number ∧ number ≤ type.largest := by
  rw [Holds, least, largest]
  cases type.signed <;> simp only [Bool.false_eq_true, if_true, if_false] <;> omega

theorem readNatural_eq_some_iff {natural : Nat} :
    readNatural digits = some natural ↔ Decimal.Denotes digits natural := by
  rw [readNatural, Decimal.denotes_iff, ← and_assoc]
  simp

theorem not_denotes_cons {first : Char} {natural : Nat} (noDigit : first.isDigit = false) :
    ¬ Decimal.Denotes (first :: digits) natural := by
  intro denotes
  have isDigit := (Decimal.denotes_iff.mp denotes).2.1 first List.mem_cons_self
  rw [noDigit] at isDigit
  cases isDigit

theorem numeral_plus_iff : Numeral signed ('+' :: digits) number ↔
    ∃ natural, Decimal.Denotes digits natural ∧ Int.ofNat natural = number := by
  constructor
  · intro numeral
    cases numeral with
    | plain denotes => exact absurd denotes (not_denotes_cons (by decide))
    | plus denotes => exact ⟨_, denotes, rfl⟩
  · rintro ⟨natural, denotes, rfl⟩
    exact .plus denotes

theorem numeral_minus_iff : Numeral signed ('-' :: digits) number ↔
    signed = true ∧ ∃ natural, Decimal.Denotes digits natural ∧ -Int.ofNat natural = number := by
  constructor
  · intro numeral
    cases numeral with
    | plain denotes => exact absurd denotes (not_denotes_cons (by decide))
    | minus isSigned denotes => exact ⟨isSigned, _, denotes, rfl⟩
  · rintro ⟨isSigned, natural, denotes, rfl⟩
    exact .minus isSigned denotes

theorem numeral_plain_iff (noPlus : ∀ rest, text ≠ '+' :: rest)
    (noMinus : ∀ rest, text ≠ '-' :: rest) : Numeral signed text number ↔
      ∃ natural, Decimal.Denotes text natural ∧ Int.ofNat natural = number := by
  constructor
  · intro numeral
    cases numeral with
    | plain denotes => exact ⟨_, denotes, rfl⟩
    | plus denotes => exact absurd rfl (noPlus _)
    | minus isSigned denotes => exact absurd rfl (noMinus _)
  · rintro ⟨natural, denotes, rfl⟩
    exact .plain denotes

theorem read_eq_some_iff (type : IntegerType) (text : List Char) (number : Int) :
    type.read text = some number ↔ Numeral type.signed text number ∧ type.Holds number := by
  -- The range is checked behind every sign, whatever has been read there.
  have inRange : ∀ found : Option Int,
      (found >>= fun candidate =>
        if type.least ≤ candidate && candidate ≤ type.largest then some candidate else none) =
          some number ↔ found = some number ∧ type.Holds number := by
    intro found
    rw [holds_iff]
    cases found with
    | none => simp
    | some candidate => grind
  unfold read
  split
  · next digits =>
    rw [inRange, numeral_plus_iff, Option.map_eq_some_iff]
    simp only [readNatural_eq_some_iff]
  · next digits =>
    rw [numeral_minus_iff]
    cases type.signed with
    | true =>
        simp only [if_true, true_and]
        rw [inRange, Option.map_eq_some_iff]
        simp only [readNatural_eq_some_iff]
    | false => simp
  · next noPlus noMinus =>
    rw [inRange, numeral_plain_iff noPlus noMinus, Option.map_eq_some_iff]
    simp only [readNatural_eq_some_iff]

theorem noBlank_of_numeral (numeral : Numeral signed text number) :
    ∀ c ∈ text, Text.isBlank c = false := by
  have inDigits : ∀ {digits : List Char} {natural : Nat}, Decimal.Denotes digits natural →
      ∀ c ∈ digits, Text.isBlank c = false := by
    intro digits natural denotes c mem
    exact Text.isBlank_of_isDigit ((Decimal.denotes_iff.mp denotes).2.1 c mem)
  cases numeral with
  | plain denotes => exact inDigits denotes
  | plus denotes => exact List.forall_mem_cons.mpr ⟨by decide, inDigits denotes⟩
  | minus isSigned denotes => exact List.forall_mem_cons.mpr ⟨by decide, inDigits denotes⟩

theorem numeral_toString (holds : type.Holds number) :
    Numeral type.signed (toString number).toList number := by
  cases number with
  | ofNat natural =>
      rw [Decimal.toList_toString_ofNat]
      exact .plain (Decimal.denotes_toDigits natural)
  | negSucc natural =>
      -- A type without a sign holds no negative integer.
      have isSigned : type.signed = true := by
        rw [← Bool.not_eq_false]
        intro unsigned
        rw [Holds, unsigned] at holds
        exact absurd holds.1 (Int.not_le.mpr (Int.negSucc_lt_zero natural))
      rw [Decimal.toList_toString_negSucc]
      exact .minus isSigned (Decimal.denotes_toDigits (natural + 1))

/-- The decimal of an integer, between any blanks, spells it for every type that holds it. -/
theorem spells_toString (holds : type.Holds number) {before behind : String}
    (beforeBlank : ∀ c ∈ before.toList, Text.isBlank c = true)
    (behindBlank : ∀ c ∈ behind.toList, Text.isBlank c = true) :
    type.Spells (before ++ toString number ++ behind) number := by
  have numeral := numeral_toString holds
  refine ⟨?_, holds⟩
  rw [String.toList_append, String.toList_append,
    Text.trim_between_blanks beforeBlank (noBlank_of_numeral numeral) behindBlank]
  exact numeral

theorem read_trim_eq_some_iff {text : String} :
    type.read (Text.trim text.toList) = some number ↔ type.Spells text number := by
  rw [read_eq_some_iff]
  exact ⟨fun both => ⟨both.1, both.2⟩, fun spells => ⟨spells.numeral, spells.holds⟩⟩

section Answers

variable {path text : String}

theorem answers_ok (spells : type.Spells text number) : type.Answers path text (.ok number) := by
  constructor
  · intro other
    rw [Except.ok.injEq, ← read_trim_eq_some_iff, read_trim_eq_some_iff.mpr spells,
      Option.some.injEq]
  · intro fault
    exact ⟨nofun, fun refused => absurd spells (refused.1 number)⟩

theorem answers_error (noneSpelled : ∀ number, ¬ type.Spells text number) :
    type.Answers path text (.error (type.misread path text)) := by
  constructor
  · intro number
    exact ⟨nofun, fun spells => absurd spells (noneSpelled number)⟩
  · intro fault
    rw [Except.error.injEq, eq_comm]
    exact (and_iff_right noneSpelled).symm

theorem answers_integer (type : IntegerType) (text : String) :
    type.Answers "" text (Conversion.integer type (some text)) := by
  rw [Conversion.integer, Conversion.ofReader, Option.bind_some]
  cases found : type.read (Text.trim text.toList) with
  | some number => exact answers_ok (read_trim_eq_some_iff.mp found)
  | none =>
      apply answers_error
      intro number spells
      rw [← read_trim_eq_some_iff, found] at spells
      cases spells

/-- A lookup enters its path into the fault and changes nothing else. -/
theorem Answers.withPath {result : Except Fault Int} (answers : type.Answers "" text result)
    (path : String) : type.Answers path text (result.mapError (·.withPath path)) := by
  cases result with
  | ok number => exact answers_ok ((answers.reads number).mp rfl)
  | error fault =>
      rcases (answers.refuses fault).mp rfl with ⟨noneSpelled, rfl⟩
      exact answers_error noneSpelled

end Answers

end IntegerType

namespace Dictionary

variable {dictionary : Dictionary} {path text : String} {α : Type} {conversion : Conversion α}

theorem getAs_of_get {scalar : Option String} (found : dictionary.get path = .ok scalar) :
    dictionary.getAs conversion path = (conversion scalar).mapError (·.withPath path) := by
  rw [getAs, found]
  rfl

/-- An optional type takes a text that is there as the type itself does. -/
theorem getAs_optional (found : dictionary.get path = .ok (some text)) :
    dictionary.getAs (Conversion.optional conversion) path =
      (dictionary.getAs conversion path).map some := by
  rw [getAs_of_get found, getAs_of_get found]
  change ((conversion (some text)).map some).mapError _ = _
  cases conversion (some text) with
  | ok value => rfl
  | error fault => rfl

end Dictionary

namespace IntegerType

/-- What reading texts as integers of a type comes to. -/
structure ReadExactly (type : IntegerType) : Prop where
  convert : ∀ text, type.Answers "" text (Conversion.integer type (some text))
  readDecimal : ∀ number, type.Holds number → ∀ before behind : String,
    (∀ c ∈ before.toList, Text.isBlank c = true) → (∀ c ∈ behind.toList, Text.isBlank c = true) →
      Conversion.integer type (some (before ++ toString number ++ behind)) = .ok number
  lookUp : ∀ (dictionary : Dictionary) (path text : String),
    dictionary.get path = .ok (some text) →
      type.Answers path text (dictionary.getAs (Conversion.integer type) path)
  convertOptional : ∀ text, Conversion.optional (Conversion.integer type) (some text) =
    (Conversion.integer type (some text)).map some
  lookUpOptional : ∀ (dictionary : Dictionary) (path text : String),
    dictionary.get path = .ok (some text) →
      dictionary.getAs (Conversion.optional (Conversion.integer type)) path =
        (dictionary.getAs (Conversion.integer type) path).map some

/-- Integers are read exactly, whatever the width of their type. -/
theorem readExactly (type : IntegerType) : type.ReadExactly where
  convert text := answers_integer type text
  readDecimal number holds before behind beforeBlank behindBlank := by
    rw [(answers_integer type _).reads]
    exact spells_toString holds beforeBlank behindBlank
  lookUp dictionary path text found := by
    rw [Dictionary.getAs_of_get found]
    exact (answers_integer type text).withPath path
  convertOptional _ := rfl
  lookUpOptional _ _ _ found := Dictionary.getAs_optional found

/-- The negative end of a range lies one further out than the positive end. -/
example : Conversion.integer ⟨"i8", true, 8⟩ (some " -00128\n") = .ok (-128) ∧
    Conversion.integer ⟨"i8", true, 8⟩ (some "+128") =
      .error (misread ⟨"i8", true, 8⟩ "" "+128") := by
  decide +kernel

end IntegerType

end ConfigTree
