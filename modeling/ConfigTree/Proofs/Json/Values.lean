import ConfigTree.Proofs.Json.Integers
import ConfigTree.Proofs.Json.Strings

/-!
# Values come back

A null, a string in quotes and a text without them are each known by the first character:
a letter, a quote, a minus or a digit.
-/

namespace ConfigTree

namespace Json

variable {node : Node} {text rest : List Char} {nested : Option NodeReader}

theorem readToken_scalar {first : Char} (noList : first ≠ '[') (noObject : first ≠ '{')
    (noDigit : first.isDigit = false) {taken : RestAfter text}
    (scalar : readScalar first text = .ok (node, taken)) (isLeft : taken.text = rest) :
    Leaves (readToken nested (first :: text)) node rest := by
  refine ⟨taken.behind first, ?_, isLeft⟩
  rw [readToken]
  · simp only [noDigit, scalar]
    rfl
  · exact noList
  · exact noObject

theorem readToken_word {first : Char} {word : List Char} (noList : first ≠ '[')
    (noObject : first ≠ '{') (noDigit : first.isDigit = false)
    (isWord : ∀ text, readScalar first text = do return (node, ← readWord word text))
    (rest : List Char) : Leaves (readToken nested (first :: word ++ rest)) node rest := by
  rcases exists_readWord word rest with ⟨taken, read, isLeft⟩
  have scalar : readScalar first (word ++ rest) = .ok (node, taken) := by
    rw [isWord, read]
    rfl
  exact readToken_scalar noList noObject noDigit scalar isLeft

theorem readToken_string {quoted : List Char} {content : String}
    (written : WritesString quoted content) (rest : List Char) :
    Leaves (readToken nested (quoted ++ rest)) (.ofText content) rest := by
  cases written with
  | @quoted inner _ written =>
      rcases readString_written written rest with ⟨taken, read, isLeft⟩
      have scalar : readScalar '"' (inner ++ '"' :: rest) = .ok (.ofText content, taken.maybe) := by
        change (readString _ >>= _) = _
        rw [read]
        change Except.ok (Node.ofText (.ofList content.toList), taken.maybe) = _
        rw [String.ofList_toList]
      rw [List.append_assoc]
      exact readToken_scalar (by decide) (by decide) rfl scalar isLeft

theorem readToken_natural {number : Nat} (small : number < UInt64.size) (ends : EndsNumber rest) :
    Leaves (readToken nested (Nat.toDigits 10 number ++ rest)) (.ofText (toString number))
      rest := by
  have asNumber := readNumber_natural small ends
  rcases Decimal.exists_toDigits number with ⟨first, more, digits, isDigit⟩
  rw [digits] at asNumber ⊢
  rcases asNumber with ⟨taken, read, isLeft⟩
  refine ⟨taken, ?_, isLeft⟩
  change readToken nested (first :: (more ++ rest)) = _
  rw [readToken]
  · rw [if_pos isDigit]
    change (readNumber false (first :: more ++ rest) >>= _) = _
    rw [read]
    rfl
  · rintro rfl
    cases isDigit
  · rintro rfl
    cases isDigit

theorem readToken_negative {number : Nat} (positive : 0 < number) (small : number ≤ Nat.pow 2 63)
    (ends : EndsNumber rest) :
    Leaves (readToken nested ('-' :: Nat.toDigits 10 number ++ rest))
      (.ofText ("-" ++ toString number)) rest := by
  rcases readNumber_negative positive small ends with ⟨taken, read, isLeft⟩
  have scalar : readScalar '-' (Nat.toDigits 10 number ++ rest) =
      .ok (.ofText ("-" ++ toString number), taken.maybe) := by
    change (readNumber true _ >>= _) = _
    rw [read]
    rfl
  exact readToken_scalar (by decide) (by decide) rfl scalar isLeft

theorem readToken_bare {content : String} (isBare : Bare content) (ends : EndsNumber rest) :
    Leaves (readToken nested (content.toList ++ rest)) (.ofText content) rest := by
  cases isBare with
  | true => exact readToken_word (by decide) (by decide) rfl (fun _ => rfl) rest
  | false => exact readToken_word (by decide) (by decide) rfl (fun _ => rfl) rest
  | @integer number least most =>
      cases number with
      | ofNat number =>
          rw [Decimal.toList_toString_ofNat]
          exact readToken_natural (Int.ofNat_lt.mp most) ends
      | negSucc number =>
          rw [Decimal.toList_toString_negSucc]
          have small : number + 1 ≤ Nat.pow 2 63 := by
            have bound : Int64.minValue.toInt = -(Nat.pow 2 63 : Nat) := by decide
            omega
          exact readToken_negative (Nat.succ_pos number) small ends

/-- A text without quotes begins with a letter, a minus or a digit. -/
theorem exists_first_of_bare {content : String} (isBare : Bare content) :
    ∃ c more, content.toList = c :: more ∧ isSpace c = false ∧ c ≠ ']' := by
  cases isBare with
  | true => exact ⟨'t', ['r', 'u', 'e'], by decide⟩
  | false => exact ⟨'f', ['a', 'l', 's', 'e'], by decide⟩
  | @integer number _ _ =>
      cases number with
      | negSucc number =>
          rw [Decimal.toList_toString_negSucc]
          exact ⟨'-', _, rfl, by decide⟩
      | ofNat number =>
          rw [Decimal.toList_toString_ofNat]
          rcases Decimal.exists_toDigits number with ⟨first, more, digits, isDigit⟩
          refine ⟨first, more, digits, isSpace_of_isDigit isDigit, ?_⟩
          rintro rfl
          cases isDigit

/-- A value comes back. -/
theorem readToken_value {content : Option String} (written : Writes text (.value content))
    (ends : EndsNumber rest) : Leaves (readToken nested (text ++ rest)) (.value content) rest := by
  cases written with
  | null => exact readToken_word (by decide) (by decide) rfl (fun _ => rfl) rest
  | string written => exact readToken_string written rest
  | bare isBare => exact readToken_bare isBare ends

end Json

end ConfigTree
