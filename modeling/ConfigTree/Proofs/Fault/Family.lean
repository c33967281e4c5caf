import ConfigTree.Fault

/-!
# Families of faults

Two faults are of one family when they differ in what they quote only, and of one
sort when their numbers are the same as well. The outcome of an operation is its
value, or the family of its fault.

Results are compared up to a mark of their faults, such as the family or the
sort. Equal results of a first part and equal results of all that can follow it
make equal results of the whole.
-/

namespace ConfigTree

namespace Fault

/-- The kinds of faults without what they quote. -/
inductive Family where
  | pathSyntax
  | notFound
  | outOfBounds
  | typeMismatch
  | unsupported
  | conversion
  | substitution
  | line
  | invalidOptions
  | json
  | file
  deriving DecidableEq

/-- The family of a fault. -/
def family (fault : Fault) : Family :=
  match fault.kind with
  | .pathSyntax .. => .pathSyntax
  | .notFound .. => .notFound
  | .outOfBounds .. => .outOfBounds
  | .typeMismatch .. => .typeMismatch
  | .unsupported .. => .unsupported
  | .conversion .. => .conversion
  | .substitution .. => .substitution
  | .line .. => .line
  | .invalidOptions .. => .invalidOptions
  | .json .. => .json
  | .file .. => .file

theorem isNotFound_iff_family {fault : Fault} :
    fault.isNotFound = true ↔ fault.family = .notFound := by
  rcases fault with ⟨kind, hint, code⟩
  cases kind <;> simp [isNotFound, family]

/-- The family of a fault and its number. -/
def sort (fault : Fault) : Family × Option Nat :=
  (fault.family, fault.code)

end Fault

variable {ε ε' α β : Type}

@[simp]
theorem mapError_ok (change : ε → ε') (value : α) :
    (.ok value : Except ε α).mapError change = .ok value := rfl

@[simp]
theorem mapError_error (change : ε → ε') (error : ε) :
    (.error error : Except ε α).mapError change = .error (change error) := rfl

@[simp]
theorem mapError_id (result : Except ε α) : result.mapError id = result := by
  cases result <;> rfl

theorem mapError_eq_mapError_iff {mark : ε → ε'} {first second : Except ε α} :
    first.mapError mark = second.mapError mark ↔
      (∃ value, first = .ok value ∧ second = .ok value) ∨
        ∃ error error', first = .error error ∧ second = .error error' ∧
          mark error = mark error' := by
  cases first <;> cases second <;> simp [eq_comm]

/-- What is equal up to a mark is equal up to every mark that depends on it. -/
theorem mapError_congr {μ μ' : Type} {mark : ε → μ} {mark' : ε → μ'} {first second : Except ε α}
    (same : first.mapError mark = second.mapError mark)
    (coarser : ∀ error error', mark error = mark error' → mark' error = mark' error') :
    first.mapError mark' = second.mapError mark' := by
  rcases mapError_eq_mapError_iff.mp same with
    ⟨value, rfl, rfl⟩ | ⟨error, error', rfl, rfl, marked⟩
  · rfl
  · exact congrArg Except.error (coarser error error' marked)

theorem mapError_bind_congr {mark : ε → ε'} {first second : Except ε α}
    {next next' : α → Except ε β}
    (same : first.mapError mark = second.mapError mark)
    (agree : ∀ value, first = .ok value →
      (next value).mapError mark = (next' value).mapError mark) :
    (first >>= next).mapError mark = (second >>= next').mapError mark := by
  rcases mapError_eq_mapError_iff.mp same with
    ⟨value, rfl, rfl⟩ | ⟨error, error', rfl, rfl, marked⟩
  · exact agree value rfl
  · exact congrArg Except.error marked

/-- A result with no more than the family of its fault. -/
def outcome (result : Except Fault α) : Except Fault.Family α :=
  result.mapError Fault.family

@[simp]
theorem outcome_ok (value : α) : outcome (.ok value) = .ok value := rfl

@[simp]
theorem outcome_error (fault : Fault) :
    outcome (.error fault : Except Fault α) = .error fault.family := rfl

theorem outcome_congr_of_sort {first second : Except Fault α}
    (same : first.mapError Fault.sort = second.mapError Fault.sort) :
    outcome first = outcome second := by
  apply mapError_congr same
  intro fault fault' sorted
  exact congrArg Prod.fst sorted

theorem outcome_eq_ok_iff {result : Except Fault α} {value : α} :
    outcome result = .ok value ↔ result = .ok value := by
  cases result <;> simp

end ConfigTree
