import ConfigTree.Proofs.Decimal.Digits
import ConfigTree.Proofs.Json.Reading

/-!
# Integers come back

The decimal of an integer that fits into 64 bits is read as the integer itself, as long as
nothing behind it could belong to a number.
-/

namespace ConfigTree.Json

open Decimal (isDigit_of_mem_toDigits head?_toDigits)

variable {number : Nat} {digits rest : List Char} {minus : Bool} {atEnd : Problem}

/-- A number does not go on with this text. -/
def EndsNumber (text : List Char) : Prop :=
  ∀ c ∈ text.head?, c.isDigit = false ∧ c ∉ ['.', 'e', 'E']

theorem endsNumber_cons {c : Char} (ends : c.isDigit = false ∧ c ∉ ['.', 'e', 'E'])
    (text : List Char) : EndsNumber (c :: text) := by
  rintro c ⟨⟩
  exact ends

theorem EndsNumber.behind_spaces {spaces text : List Char} (ends : EndsNumber text)
    (blank : Spaces spaces) : EndsNumber (spaces ++ text) := by
  cases spaces with
  | nil => exact ends
  | cons space spaces =>
      have isSpace := blank space List.mem_cons_self
      simp only [List.mem_cons, List.not_mem_nil, or_false] at isSpace
      rcases isSpace with rfl | rfl | rfl | rfl <;> exact endsNumber_cons (by decide) _

/-- Digits are gathered to the end if their number has 64 bits. -/
theorem gather_of_small {significand : Nat} {digits : List Char}
    (small : Decimal.appendDigits significand digits < UInt64.size) :
    gather significand digits = (Decimal.appendDigits significand digits, []) := by
  induction digits generalizing significand with
  | nil => rfl
  | cons digit rest ih =>
      have next := Nat.lt_of_le_of_lt
        (Decimal.le_appendDigits (10 * significand + Decimal.digitValue digit) rest) small
      rw [gather]
      simp only [next, if_true]
      exact ih small

theorem readDigits_written (filled : digits ≠ []) (areDigits : ∀ c ∈ digits, c.isDigit = true)
    (ends : EndsNumber rest) : Leaves (readDigits atEnd (digits ++ rest)) digits rest := by
  cases digits with
  | nil => exact absurd rfl filled
  | cons c digits =>
      rw [List.forall_mem_cons] at areDigits
      have stops : rest.takeWhile Char.isDigit = [] ∧ rest.dropWhile Char.isDigit = rest := by
        cases rest with
        | nil => exact ⟨rfl, rfl⟩
        | cons next rest => simp [(ends next rfl).1]
      refine ⟨(RestAfter.dropWhile Char.isDigit (digits ++ rest)).behind c, ?_, ?_⟩
      · change readDigits atEnd (c :: (digits ++ rest)) = _
        rw [readDigits, if_pos areDigits.1, List.takeWhile_append_of_pos areDigits.2, stops.1,
          List.append_nil]
      · change (digits ++ rest).dropWhile Char.isDigit = rest
        rw [List.dropWhile_append_of_pos areDigits.2, stops.2]

theorem readFraction_of_ends (ends : EndsNumber rest) :
    readFraction atEnd rest = .ok ([], .all rest) := by
  unfold readFraction
  split
  · have noPoint := (ends '.' rfl).2
    simp at noPoint
  · rfl

theorem readExponent_of_ends (ends : EndsNumber rest) :
    readExponent atEnd rest = .ok (none, .all rest) := by
  cases rest with
  | nil => rfl
  | cons c rest =>
      have noLetter := (ends c rfl).2
      rw [readExponent, if_neg]
      simp only [List.mem_cons, List.not_mem_nil, or_false, not_or] at noLetter
      simp [noLetter]

theorem readWritten_digits (filled : digits ≠ []) (areDigits : ∀ c ∈ digits, c.isDigit = true)
    (noZero : digits.head? = some '0' → digits = ['0']) (ends : EndsNumber rest) :
    Leaves (readWritten atEnd (digits ++ rest)) ⟨digits, [], none⟩ rest := by
  apply (readDigits_written filled areDigits ends).bind
  intro taken isLeft
  dsimp only
  split
  · have single := noZero rfl
    simp at single
  · rw [← isLeft] at ends
    refine ⟨(taken.andMaybe (.all _)).andMaybe (.all _), ?_, isLeft⟩
    rw [readFraction_of_ends ends]
    change (readExponent atEnd taken.text >>= _) = _
    rw [readExponent_of_ends ends]
    rfl

theorem readNumber_digits (ends : EndsNumber rest) {value : Number}
    (isNumber : wholeNumber minus (Nat.toDigits 10 number) rest = .ok value) :
    Leaves (readNumber minus (Nat.toDigits 10 number ++ rest)) value rest := by
  have areDigits : ∀ c ∈ Nat.toDigits 10 number, c.isDigit = true := by
    intro c mem
    exact isDigit_of_mem_toDigits mem
  have noZero : (Nat.toDigits 10 number).head? = some '0' → Nat.toDigits 10 number = ['0'] := by
    intro isZero
    rcases Nat.eq_zero_or_pos number with rfl | positive
    · rfl
    · exact absurd isZero (head?_toDigits positive)
  apply (readWritten_digits Nat.toDigits_ne_nil areDigits noZero ends).bind
  intro taken isLeft
  refine ⟨taken, ?_, isLeft⟩
  have sameNumber : WrittenNumber.number minus ⟨Nat.toDigits 10 number, [], none⟩ taken.text =
      .ok value := by
    rw [← isNumber, isLeft]
    rfl
  simp only [sameNumber]
  rfl

theorem gather_toDigits (small : number < UInt64.size) :
    gather 0 (Nat.toDigits 10 number) = (number, []) := by
  have same : Decimal.appendDigits 0 (Nat.toDigits 10 number) = number :=
    Decimal.ofDigits_toDigits number
  rw [gather_of_small (by rw [same]; exact small), same]

theorem readNumber_natural (small : number < UInt64.size) (ends : EndsNumber rest) :
    Leaves (readNumber false (Nat.toDigits 10 number ++ rest)) (.natural number) rest := by
  apply readNumber_digits ends
  simp [wholeNumber, gather_toDigits small]

theorem readNumber_negative (positive : 0 < number) (small : number ≤ Nat.pow 2 63)
    (ends : EndsNumber rest) :
    Leaves (readNumber true (Nat.toDigits 10 number ++ rest)) (.negative number) rest := by
  have fits : number < UInt64.size := Nat.lt_of_le_of_lt small (by decide)
  apply readNumber_digits ends
  have inRange : (number = 0 || Nat.pow 2 63 < number) = false := by
    simp only [Bool.or_eq_false_iff, decide_eq_false_iff_not, Nat.not_lt]
    exact ⟨by omega, small⟩
  simp [wholeNumber, gather_toDigits fits, inRange]

end ConfigTree.Json
