import ConfigTree.Decimal.Parse
import Mathlib.Data.List.Induction

/-!
# Digits of natural numbers

A row of digits denotes ten times what all but its last digit denote, and the last
digit. `Decimal.Denotes` says this, for one digit and more, without the reader.

The decimal of a number has digits only, does not begin with a zero if the number is
positive, and denotes the number again.
-/

namespace ConfigTree.Decimal

/-- A row of one or more digits denotes a number. -/
inductive Denotes : List Char → Nat → Prop where
  | single {digit : Char} (isDigit : digit.isDigit = true) : Denotes [digit] (digitValue digit)
  | concat {digits : List Char} {number : Nat} {digit : Char} (front : Denotes digits number)
      (isDigit : digit.isDigit = true) :
      Denotes (digits ++ [digit]) (10 * number + digitValue digit)

variable {number : Nat} {digits : List Char}

theorem ofDigits_concat (digits : List Char) (digit : Char) :
    ofDigits (digits ++ [digit]) = 10 * ofDigits digits + digitValue digit := by
  rw [ofDigits, appendDigits, List.foldl_append]
  rfl

theorem denotes_iff :
    Denotes digits number ↔
      digits ≠ [] ∧ (∀ c ∈ digits, c.isDigit = true) ∧ ofDigits digits = number := by
  constructor
  · intro denotes
    induction denotes with
    | @single digit isDigit =>
        refine ⟨by simp, ?_, by simp [ofDigits, appendDigits]⟩
        rw [List.forall_mem_singleton]
        exact isDigit
    | @concat digits number digit front isDigit ih =>
        rcases ih with ⟨_, areDigits, rfl⟩
        refine ⟨by simp, ?_, ofDigits_concat digits digit⟩
        rw [List.forall_mem_append, List.forall_mem_singleton]
        exact ⟨areDigits, isDigit⟩
  · rintro ⟨filled, areDigits, rfl⟩
    induction digits using List.reverseRecOn with
    | nil => exact absurd rfl filled
    | append_singleton front digit ih =>
        rw [List.forall_mem_append, List.forall_mem_singleton] at areDigits
        rw [ofDigits_concat]
        rcases front with _ | ⟨first, more⟩
        · simpa [ofDigits, appendDigits] using Denotes.single areDigits.2
        · exact .concat (ih (by simp) areDigits.1) areDigits.2

theorem isDigit_of_mem_toDigits {c : Char} (mem : c ∈ Nat.toDigits 10 number) : c.isDigit = true :=
  Nat.isDigit_of_mem_toDigits (by decide) (by decide) mem

theorem exists_toDigits (number : Nat) :
    ∃ first more, Nat.toDigits 10 number = first :: more ∧ first.isDigit = true := by
  cases digits : Nat.toDigits 10 number with
  | nil => exact absurd digits Nat.toDigits_ne_nil
  | cons first more =>
      refine ⟨first, more, rfl, ?_⟩
      apply isDigit_of_mem_toDigits
      rw [digits]
      exact List.mem_cons_self

/-- The decimal of a number does not begin with a zero, unless it is the number zero. -/
theorem head?_toDigits (positive : 0 < number) :
    (Nat.toDigits 10 number).head? ≠ some '0' := by
  induction number using Nat.strongRecOn with
  | ind number ih =>
      rcases Nat.lt_or_ge number 10 with below | above
      · rw [Nat.toDigits_of_lt_base below]
        intro isZero
        rw [List.head?_cons, Option.some.injEq, Nat.digitChar_eq_zero] at isZero
        omega
      · rw [Nat.toDigits_of_base_le (by decide) above]
        intro isZero
        have inFront := ih (number / 10) (by omega) (by omega)
        rcases exists_toDigits (number / 10) with ⟨first, more, front, _⟩
        rw [front] at isZero inFront
        exact inFront isZero

theorem ofDigits_toDigits (number : Nat) : ofDigits (Nat.toDigits 10 number) = number :=
  Nat.ofDigitChars_ten_toDigits

theorem denotes_toDigits (number : Nat) : Denotes (Nat.toDigits 10 number) number :=
  denotes_iff.mpr ⟨Nat.toDigits_ne_nil, fun _ mem => isDigit_of_mem_toDigits mem,
    ofDigits_toDigits number⟩

theorem toList_toString_ofNat (number : Nat) :
    (toString (Int.ofNat number)).toList = Nat.toDigits 10 number := by
  change number.repr.toList = _
  simp

theorem toList_toString_negSucc (number : Nat) :
    (toString (Int.negSucc number)).toList = '-' :: Nat.toDigits 10 (number + 1) := by
  change ("-" ++ (number + 1).repr).toList = _
  simp

theorem le_appendDigits (significand : Nat) (digits : List Char) :
    significand ≤ appendDigits significand digits := by
  induction digits generalizing significand with
  | nil => exact Nat.le_refl significand
  | cons digit rest ih =>
      have next := ih (10 * significand + digitValue digit)
      change significand ≤ appendDigits (10 * significand + digitValue digit) rest
      omega

end ConfigTree.Decimal
