import ConfigTree.Proofs.Json.Reading

/-!
# Strings come back

However the characters of a string are written, they are read as themselves.
-/

namespace ConfigTree.Json

variable {c : Char} {value codeUnit : Nat} {digits text content : List Char}

theorem hexValue?_of_mem_hexDigits (small : value < 16) {digit : Char}
    (mem : digit ∈ hexDigits value) : hexValue? digit = some value := by
  have all : ∀ value < 16, hexValue? value.digitChar = some value ∧
      hexValue? value.digitChar.toUpper = some value := by
    decide
  simp only [hexDigits, List.mem_cons, List.not_mem_nil, or_false] at mem
  rcases mem with rfl | rfl
  · exact (all value small).1
  · exact (all value small).2

theorem readHex_written (written : WritesCodeUnit digits codeUnit) (small : codeUnit < 0x10000)
    (rest : List Char) : Leaves (readHex (digits ++ rest)) codeUnit rest := by
  cases written with
  | @digits _ a b c d first second third fourth =>
      have number : hexQuad? a b c d = some codeUnit := by
        rw [hexQuad?, hexValue?_of_mem_hexDigits (by omega) first,
          hexValue?_of_mem_hexDigits (Nat.mod_lt _ (by decide)) second,
          hexValue?_of_mem_hexDigits (Nat.mod_lt _ (by decide)) third,
          hexValue?_of_mem_hexDigits (Nat.mod_lt _ (by decide)) fourth]
        change some _ = some _
        congr 1
        omega
      refine ⟨(((Rest.tail d rest).behind c).behind b).behind a, ?_, rfl⟩
      change readHex (a :: b :: c :: d :: rest) = _
      rw [readHex, number]

theorem isLowSurrogate_iff : isLowSurrogate codeUnit = true ↔
    0xDC00 ≤ codeUnit ∧ codeUnit ≤ 0xDFFF := by
  simp [isLowSurrogate]

theorem isHighSurrogate_iff : isHighSurrogate codeUnit = true ↔
    0xD800 ≤ codeUnit ∧ codeUnit ≤ 0xDBFF := by
  simp [isHighSurrogate]

theorem no_surrogate (c : Char) : c.toNat < 0xD800 ∨ 0xDFFF < c.toNat ∧ c.toNat < 0x110000 :=
  c.valid

theorem isHighSurrogate_highSurrogate (c : Char) : isHighSurrogate (highSurrogate c) = true := by
  have valid := no_surrogate c
  rw [isHighSurrogate_iff, highSurrogate]
  omega

theorem isLowSurrogate_lowSurrogate (c : Char) : isLowSurrogate (lowSurrogate c) = true := by
  rw [isLowSurrogate_iff, lowSurrogate]
  omega

theorem combineSurrogates_eq (large : 0x10000 ≤ c.toNat) :
    combineSurrogates (highSurrogate c) (lowSurrogate c) = c := by
  have sum : 0x10000 + (highSurrogate c - 0xD800) * 0x400 + (lowSurrogate c - 0xDC00) =
      c.toNat := by
    simp only [highSurrogate, lowSurrogate]
    omega
  rw [combineSurrogates, sum, Char.ofNat_toNat]

theorem readUnicode_codeUnit (written : WritesCodeUnit digits c.toNat) (small : c.toNat < 0x10000)
    (rest : List Char) : Leaves (readUnicode (digits ++ rest)) c rest := by
  have valid := no_surrogate c
  have notLow : ¬isLowSurrogate c.toNat = true := by
    rw [isLowSurrogate_iff]
    omega
  have notHigh : ¬isHighSurrogate c.toNat = true := by
    rw [isHighSurrogate_iff]
    omega
  apply (readHex_written written small rest).bind
  intro taken isLeft
  simp only [notLow, notHigh, Char.ofNat_toNat]
  exact ⟨taken, rfl, isLeft⟩

theorem readLowSurrogate_written (large : 0x10000 ≤ c.toNat)
    (written : WritesCodeUnit digits (lowSurrogate c)) (rest : List Char) :
    Leaves (readLowSurrogate (highSurrogate c) ('\\' :: 'u' :: digits ++ rest)) c rest := by
  have isLow := isLowSurrogate_lowSurrogate c
  have bounds := isLowSurrogate_iff.mp isLow
  change Leaves (readLowSurrogate _ ('\\' :: 'u' :: (digits ++ rest))) c rest
  rw [readLowSurrogate]
  apply (readHex_written written (by omega) rest).bind
  intro taken isLeft
  simp only [isLow, combineSurrogates_eq large]
  exact ⟨(taken.behind 'u').behind '\\', rfl, isLeft⟩

theorem readUnicode_surrogates {high low : List Char} (large : 0x10000 ≤ c.toNat)
    (writtenHigh : WritesCodeUnit high (highSurrogate c))
    (writtenLow : WritesCodeUnit low (lowSurrogate c)) (rest : List Char) :
    Leaves (readUnicode (high ++ '\\' :: 'u' :: low ++ rest)) c rest := by
  have isHigh := isHighSurrogate_highSurrogate c
  have bounds := isHighSurrogate_iff.mp isHigh
  have notLow : ¬isLowSurrogate (highSurrogate c) = true := by
    rw [isLowSurrogate_iff]
    omega
  rw [List.append_assoc]
  apply (readHex_written writtenHigh (by omega) _).bind
  intro taken isLeft
  have behindHigh := readLowSurrogate_written large writtenLow rest
  rw [← isLeft] at behindHigh
  simp only [notLow, isHigh]
  apply behindHigh.bind
  intro after isLeft'
  exact ⟨taken.andThen after, rfl, isLeft'⟩

theorem readUnit_written (written : WritesChar text c) (rest : List Char) :
    Leaves (readUnit (text ++ rest)) (some c) rest := by
  cases written with
  | raw notControl notQuote notBackslash =>
      have isPrintable : isControl c = false := by simpa [isControl] using notControl
      refine ⟨.tail c rest, ?_, rfl⟩
      change readUnit (c :: rest) = _
      rw [readUnit]
      · rw [if_neg (by simp [isPrintable])]
      · exact notQuote
      all_goals
        intros
        contradiction
  | @letter letter _ escape =>
      refine ⟨(Rest.tail letter rest).behind '\\', ?_, rfl⟩
      simp only [letterEscapes, List.mem_cons, Prod.mk.injEq, List.not_mem_nil, or_false] at escape
      rcases escape with ⟨rfl, rfl⟩ | ⟨rfl, rfl⟩ | ⟨rfl, rfl⟩ | ⟨rfl, rfl⟩ | ⟨rfl, rfl⟩ |
        ⟨rfl, rfl⟩ | ⟨rfl, rfl⟩ | ⟨rfl, rfl⟩ <;> rfl
  | @codeUnit _ digits small written =>
      change Leaves (readUnit ('\\' :: 'u' :: (digits ++ rest))) (some c) rest
      rw [readUnit]
      apply (readUnicode_codeUnit written small rest).bind
      intro taken isLeft
      exact ⟨(taken.behind 'u').behind '\\', rfl, isLeft⟩
  | @surrogates _ high low large writtenHigh writtenLow =>
      change Leaves (readUnit ('\\' :: 'u' :: (high ++ '\\' :: 'u' :: low ++ rest))) (some c) rest
      rw [readUnit]
      apply (readUnicode_surrogates large writtenHigh writtenLow rest).bind
      intro taken isLeft
      exact ⟨(taken.behind 'u').behind '\\', rfl, isLeft⟩

/-- The characters within quotes are read up to the closing quote. -/
theorem readString_written (written : WritesChars text content) (rest : List Char) :
    Leaves (readString (text ++ '"' :: rest)) content rest := by
  induction written with
  | nil =>
      rw [List.nil_append, readString]
      exact ⟨.tail '"' rest, rfl, rfl⟩
  | @cons c first text content written _ ih =>
      rw [List.append_assoc, readString]
      apply (readUnit_written written _).bind
      intro taken isLeft
      rw [← isLeft] at ih
      apply ih.bind
      intro after isLeft'
      exact ⟨taken.andThen after, rfl, isLeft'⟩

end ConfigTree.Json
