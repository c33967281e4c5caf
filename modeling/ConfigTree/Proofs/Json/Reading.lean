import ConfigTree.Json.Document
import ConfigTree.Proofs.Json.Written

/-!
# Reading what is written

How the readers of JSON meet texts that are written. A reader is given its text with
something behind it, and is said to take a value and to leave just that.
-/

namespace ConfigTree.Json

variable {α β : Type} {whole whole' text left : List Char}

/-- A reader takes a value and leaves the rest of its text. -/
def Leaves (result : Except Stop (α × Rest whole)) (value : α) (left : List Char) : Prop :=
  ∃ rest : Rest whole, result = .ok (value, rest) ∧ rest.text = left

/-- A reader that goes on behind another one. -/
theorem Leaves.bind {result : Except Stop (α × Rest whole)} {value : α} {value' : β}
    {left' : List Char} {next : α × Rest whole → Except Stop (β × Rest whole')}
    (first : Leaves result value left)
    (more : ∀ rest : Rest whole, rest.text = left → Leaves (next (value, rest)) value' left') :
    Leaves (result >>= next) value' left' := by
  rcases first with ⟨rest, rfl, isLeft⟩
  exact more rest isLeft

theorem isSpace_of_mem {c : Char} (mem : c ∈ [' ', '\n', '\t', '\r']) : isSpace c = true := by
  simp only [List.mem_cons, List.not_mem_nil, or_false] at mem
  rcases mem with rfl | rfl | rfl | rfl <;> rfl

theorem isSpace_of_isDigit {c : Char} (isDigit : c.isDigit = true) : isSpace c = false := by
  cases blank : isSpace c with
  | false => rfl
  | true =>
      simp only [isSpace, Bool.or_eq_true, beq_iff_eq] at blank
      rcases blank with ((rfl | rfl) | rfl) | rfl <;> cases isDigit

theorem skipSpace_append {spaces : List Char} (blank : Spaces spaces) (text : List Char) :
    skipSpace (spaces ++ text) = skipSpace text :=
  List.dropWhile_append_of_pos fun c mem => isSpace_of_mem (blank c mem)

theorem skipSpace_cons {c : Char} (filled : isSpace c = false) (text : List Char) :
    skipSpace (c :: text) = c :: text :=
  List.dropWhile_cons_of_neg (by simp [filled])

theorem skipSpace_append_cons {spaces : List Char} (blank : Spaces spaces) {c : Char}
    (filled : isSpace c = false) (text : List Char) :
    skipSpace (spaces ++ c :: text) = c :: text := by
  rw [skipSpace_append blank, skipSpace_cons filled]

theorem exists_readWord (word rest : List Char) :
    ∃ taken : RestAfter (word ++ rest), readWord word (word ++ rest) = .ok taken ∧
      taken.text = rest := by
  induction word with
  | nil => exact ⟨.all rest, rfl, rfl⟩
  | cons c word ih =>
      rcases ih with ⟨taken, read, isLeft⟩
      refine ⟨(taken.behind c).maybe, ?_, isLeft⟩
      change readWord (c :: word) (c :: (word ++ rest)) = _
      rw [readWord, if_pos rfl, read]
      rfl

theorem exists_readColon {spaces : List Char} (blank : Spaces spaces) (rest : List Char) :
    ∃ taken : Rest (spaces ++ ':' :: rest), readColon (spaces ++ ':' :: rest) = .ok taken ∧
      taken.text = rest := by
  have isColon : skipSpace (spaces ++ ':' :: rest) = ':' :: rest :=
    skipSpace_append_cons blank rfl rest
  unfold readColon
  split
  · next nothing =>
    cases nothing.symm.trans isColon
  · next behind skipped =>
    cases skipped.symm.trans isColon
    exact ⟨.ofSkipSpace skipped, rfl, rfl⟩
  · next noColon =>
    exact absurd isColon (noColon rest)

end ConfigTree.Json
