import ConfigTree.Text.Basic
import Mathlib.Data.List.DropRight
import Mathlib.Data.List.TakeWhile

/-!
# What trimming keeps

Trimming drops blanks only. Whatever holds of all blanks therefore holds of a
trimmed text exactly if it holds of the text, and a text that trims to nothing
consists of blanks. Nothing is left to drop from a trimmed text.
-/

namespace ConfigTree

namespace Text

/-- A character that is not blank is none of blanks. -/
theorem notMem_of_blank {blanks : List Char} {c : Char} (filled : isBlank c = false)
    (allBlank : ∀ d ∈ blanks, isBlank d = true) : c ∉ blanks := by
  intro mem
  rw [allBlank c mem] at filled
  cases filled

theorem trimEnd_eq_nil_iff {text : List Char} :
    trimEnd text = [] ↔ ∀ c ∈ text, isBlank c = true := by
  simp [trimEnd, List.dropWhile_eq_nil_iff]

/-- Trimming drops blanks only, so it keeps whether all characters satisfy what blanks satisfy. -/
theorem forall_mem_trim_iff {text : List Char} {property : Char → Prop}
    (blanks : ∀ c, isBlank c = true → property c) :
    (∀ c ∈ trim text, property c) ↔ ∀ c ∈ text, property c := by
  have dropped : ∀ text : List Char,
      (∀ c ∈ text.dropWhile isBlank, property c) ↔ ∀ c ∈ text, property c := by
    intro text
    induction text with
    | nil => simp
    | cons first rest ih =>
        by_cases blank : isBlank first = true
        · simp [blank, ih, blanks first blank]
        · simp [blank]
  simp only [trim, trimEnd, trimStart, List.mem_reverse]
  rw [dropped]
  simp only [List.mem_reverse]
  exact dropped text

theorem isBlank_of_mem_space : ∀ c ∈ [' '], isBlank c = true := by
  rw [List.forall_mem_singleton]
  rfl

theorem trim_eq_nil_iff {text : List Char} :
    trim text = [] ↔ ∀ c ∈ text, isBlank c = true := by
  have trimmed := @forall_mem_trim_iff text (fun c => isBlank c = true) fun _ blank => blank
  constructor
  · intro empty
    apply trimmed.mp
    simp [empty]
  · intro allBlank
    rw [trim, trimEnd_eq_nil_iff]
    intro c mem
    exact allBlank c (List.dropWhile_subset _ mem)

theorem trim_prefix_trimStart (text : List Char) : trim text <+: trimStart text :=
  List.rdropWhile_prefix isBlank (trimStart text)

theorem mem_of_mem_trim {text : List Char} {c : Char} (mem : c ∈ trim text) : c ∈ text :=
  List.dropWhile_subset _ ((trim_prefix_trimStart text).subset mem)

@[simp]
theorem trimStart_trim (text : List Char) : trimStart (trim text) = trim text := by
  rw [trimStart, List.dropWhile_eq_self_iff]
  intro filled
  -- A trimmed text begins with the first character of the text that is not blank.
  rw [(trim_prefix_trimStart text).getElem filled]
  exact List.dropWhile_eq_self_iff.mp (List.dropWhile_idempotent isBlank text) _

@[simp]
theorem trim_trim (text : List Char) : trim (trim text) = trim text := by
  rw [trim, trimStart_trim]
  exact List.rdropWhile_idempotent isBlank (trimStart text)

theorem not_blank_of_head?_trimStart {text : List Char} {c : Char}
    (first : (trimStart text).head? = some c) : isBlank c = false := by
  have begins := List.head?_dropWhile_not isBlank text
  rw [trimStart] at first
  rwa [first] at begins

theorem not_blank_of_head?_trim {text : List Char} {c : Char}
    (first : (trim text).head? = some c) : isBlank c = false := by
  have started := trimStart_trim text
  cases kept : trim text with
  | nil => simp [kept] at first
  | cons d rest =>
      rw [kept] at first started
      cases first
      have begins := List.dropWhile_eq_self_iff.mp started (by simp)
      simpa using begins

theorem not_blank_of_getLast?_trim {text : List Char} {c : Char}
    (last : (trim text).getLast? = some c) : isBlank c = false := by
  have filled : trim text ≠ [] := by
    intro empty
    simp [empty] at last
  rw [List.getLast?_eq_getLast_of_ne_nil filled] at last
  cases last
  exact Bool.eq_false_iff.mpr (List.rdropWhile_last_not isBlank (trimStart text) filled)

/-- A text without blanks at its ends is left alone. -/
theorem trim_eq_self {text : List Char} (first : ∀ c, text.head? = some c → isBlank c = false)
    (last : ∀ c, text.getLast? = some c → isBlank c = false) : trim text = text := by
  have started : trimStart text = text := by
    cases text with
    | nil => rfl
    | cons c rest => simp [trimStart, first c rfl]
  rw [trim, started]
  apply List.rdropWhile_eq_self_iff.mpr
  intro filled
  simp [last _ (List.getLast?_eq_getLast_of_ne_nil filled)]

theorem isBlank_of_isDigit {c : Char} (isDigit : c.isDigit = true) : isBlank c = false := by
  have inRange : 48 ≤ c.toNat ∧ c.toNat ≤ 57 := by
    rw [Char.isDigit, Bool.and_eq_true, decide_eq_true_eq, decide_eq_true_eq] at isDigit
    exact isDigit
  simp [isBlank]
  omega

@[simp]
theorem trim_trimStart (text : List Char) : trim (trimStart text) = trim text := by
  have again : trimStart (trimStart text) = trimStart text :=
    List.dropWhile_idempotent isBlank text
  rw [trim, again, trim]

/-- Blanks around a text do not count. -/
theorem trim_blanks_append {blanks : List Char} (allBlank : ∀ c ∈ blanks, isBlank c = true)
    (text : List Char) : trim (blanks ++ text) = trim text := by
  rw [trim, trimStart, List.dropWhile_append_of_pos allBlank]
  rfl

/-- Blanks in front do not count, whatever stands behind the text. -/
theorem trim_trimStart_append (first rest : List Char) :
    trim (trimStart first ++ rest) = trim (first ++ rest) := by
  have blanks : ∀ c ∈ first.takeWhile isBlank, isBlank c = true := by
    intro c mem
    exact List.mem_takeWhile_imp mem
  have whole : first ++ rest = first.takeWhile isBlank ++ (trimStart first ++ rest) := by
    rw [← List.append_assoc]
    exact congrArg (· ++ rest) List.takeWhile_append_dropWhile.symm
  rw [whole, trim_blanks_append blanks]

theorem trimEnd_append_blanks (text : List Char) {blanks : List Char}
    (allBlank : ∀ c ∈ blanks, isBlank c = true) : trimEnd (text ++ blanks) = trimEnd text := by
  have allBlankBackwards : ∀ c ∈ blanks.reverse, isBlank c = true := by
    intro c mem
    exact allBlank c (List.mem_reverse.mp mem)
  rw [trimEnd, List.reverse_append, List.dropWhile_append_of_pos allBlankBackwards]
  rfl

theorem trimEnd_concat (text : List Char) {c : Char} (filled : isBlank c = false) :
    trimEnd (text ++ [c]) = text ++ [c] := by
  simp [trimEnd, filled]

theorem trim_append_blanks (text : List Char) {blanks : List Char}
    (allBlank : ∀ c ∈ blanks, isBlank c = true) : trim (text ++ blanks) = trim text := by
  rw [trim, trimStart, List.dropWhile_append]
  split
  · next empty =>
    have blank : trim text = [] := by
      rw [List.isEmpty_iff, List.dropWhile_eq_nil_iff] at empty
      exact trim_eq_nil_iff.mpr empty
    rw [blank, List.dropWhile_eq_nil_iff.mpr allBlank]
    rfl
  · exact trimEnd_append_blanks _ allBlank

/-- A text without blanks comes back from between blanks. -/
theorem trim_between_blanks {before text behind : List Char}
    (beforeBlank : ∀ c ∈ before, isBlank c = true) (noBlank : ∀ c ∈ text, isBlank c = false)
    (behindBlank : ∀ c ∈ behind, isBlank c = true) : trim (before ++ text ++ behind) = text := by
  rw [trim_append_blanks _ behindBlank, trim_blanks_append beforeBlank]
  apply trim_eq_self
  · intro c first
    exact noBlank c (List.mem_of_head? first)
  · intro c last
    exact noBlank c (List.mem_of_getLast? last)

/-- Blanks at the end do not count, whatever stands in front of the text. -/
theorem trim_append_trimEnd (first rest : List Char) :
    trim (first ++ trimEnd rest) = trim (first ++ rest) := by
  have cutAtEnd : trimEnd rest ++ rest.rtakeWhile isBlank = rest :=
    List.rdropWhile_append_rtakeWhile
  have dropped : ∀ c ∈ rest.rtakeWhile isBlank, isBlank c = true := by
    intro c mem
    exact List.mem_rtakeWhile_imp mem
  have whole := trim_append_blanks (first ++ trimEnd rest) dropped
  rw [List.append_assoc, cutAtEnd] at whole
  exact whole.symm

@[simp]
theorem trim_trimEnd (text : List Char) : trim (trimEnd text) = trim text :=
  trim_append_trimEnd [] text

/-- A text is its trimmed text between blanks. -/
theorem exists_eq_append_trim (text : List Char) :
    ∃ before behind, text = before ++ (trim text ++ behind) ∧
      (∀ c ∈ before, isBlank c = true) ∧ ∀ c ∈ behind, isBlank c = true := by
  refine ⟨text.takeWhile isBlank, (trimStart text).rtakeWhile isBlank, ?_, ?_, ?_⟩
  · have cutAtEnd : trim text ++ (trimStart text).rtakeWhile isBlank = trimStart text :=
      List.rdropWhile_append_rtakeWhile
    rw [cutAtEnd]
    exact List.takeWhile_append_dropWhile.symm
  · intro c mem
    exact List.mem_takeWhile_imp mem
  · intro c mem
    exact List.mem_rtakeWhile_imp mem

/-- Trimming keeps every character that is not blank. -/
theorem count_trim (text : List Char) {c : Char} (filled : isBlank c = false) :
    (trim text).count c = text.count c := by
  rcases exists_eq_append_trim text with ⟨before, behind, split, beforeBlank, behindBlank⟩
  have noneIn : ∀ blanks : List Char, (∀ d ∈ blanks, isBlank d = true) → blanks.count c = 0 := by
    intro blanks allBlank
    exact List.count_eq_zero.mpr (notMem_of_blank filled allBlank)
  have whole := congrArg (List.count c) split
  rw [List.count_append, List.count_append, noneIn before beforeBlank,
    noneIn behind behindBlank] at whole
  omega

/-- On either side of a character that is not blank, only the outer end is trimmed. -/
theorem trim_append_cons (first : List Char) {c : Char} (filled : isBlank c = false)
    (rest : List Char) : trim (first ++ c :: rest) = trimStart first ++ c :: trimEnd rest := by
  have started : trimStart (first ++ c :: rest) = trimStart first ++ c :: rest := by
    rw [trimStart, List.dropWhile_append]
    split
    · next empty =>
      rw [trimStart, List.isEmpty_iff.mp empty]
      simp [filled]
    · rfl
  rw [trim, started, trimEnd, List.reverse_append, List.reverse_cons, List.append_assoc,
    List.dropWhile_append]
  split
  · next empty =>
    rw [trimEnd, List.isEmpty_iff.mp empty]
    simp [filled]
  · simp [trimEnd]

end Text

end ConfigTree
