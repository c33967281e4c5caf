import ConfigTree.Proofs.Dictionary.Nesting
import ConfigTree.Proofs.Dictionary.Write
import ConfigTree.Proofs.Node.Reach

/-!
# Comparing lookups

Two lookups in dictionaries with the same policy come to the same if they find the
same at their paths and if, for every name that is looked up behind a reference in
the text, they find the same there. How much of a fault counts is left open: a mark
says what is compared of it. The mark has to tell whether nothing was found, because
a default is taken for this alone; families, sorts and whole faults all do.

What is found at a path depends on the segments of the path. Its spelling shows in
what a fault quotes, and in the number of the fault if a container is asked for its
text: this number is another one where the path is written as the root.
-/

namespace ConfigTree

namespace Fault

variable {μ : Type}

/-- Faults with the same mark agree on whether nothing was found. -/
def Telling (mark : Fault → μ) : Prop :=
  ∀ fault fault', mark fault = mark fault' → fault.isNotFound = fault'.isNotFound

theorem telling_family : Telling family := by
  intro fault fault' same
  rw [Bool.eq_iff_iff, isNotFound_iff_family, isNotFound_iff_family, same]

/-- The sort of a fault, where a container that is asked for its text counts the same at the root
and below it. -/
def sortOfLookup (fault : Fault) : Family × Option Nat :=
  (fault.family, if fault.code = some 308 then some 307 else fault.code)

theorem sortOfLookup_eq_of_sort {fault fault' : Fault} (same : fault.sort = fault'.sort) :
    fault.sortOfLookup = fault'.sortOfLookup := by
  simp only [sort, Prod.mk.injEq] at same
  rw [sortOfLookup, sortOfLookup, same.1, same.2]

theorem telling_sortOfLookup : Telling sortOfLookup := by
  intro fault fault' same
  exact telling_family fault fault' (congrArg Prod.fst same)

end Fault

variable {μ : Type} {mark : Fault → μ}

theorem Template.mapError_worth_congr {resolve resolve' : Reference → Except Fault String}
    {text : String} {pieces : List Piece} {unclosed : Option (List Char)}
    (agree : ∀ piece ∈ pieces,
      (piece.worth resolve).mapError mark = (piece.worth resolve').mapError mark) :
    (worth resolve text pieces unclosed).mapError mark =
      (worth resolve' text pieces unclosed).mapError mark := by
  induction pieces with
  | nil => cases unclosed <;> rfl
  | cons piece pieces ih =>
      rw [List.forall_mem_cons] at agree
      rw [worth, worth]
      apply mapError_bind_congr agree.1
      intro first _
      apply mapError_bind_congr (ih agree.2)
      intro rest _
      rfl

namespace Dictionary

variable {first second : Dictionary} {path path' : String}
  {follow follow' : String → Except Fault (Option String)}

/-- What a reference is worth depends on the policy, not on the tree. -/
theorem SamePolicy.resolve_eq (same : first.SamePolicy second) :
    first.resolve follow = second.resolve follow := by
  rcases first with ⟨root, environmentAsked, treeAsked, environment, _⟩
  rcases second with ⟨root', environmentAsked', treeAsked', environment', _⟩
  rcases same with ⟨rfl, rfl, rfl⟩
  rfl

theorem mapError_resolve_congr (telling : Fault.Telling mark) (same : first.SamePolicy second)
    {reference : Reference}
    (agree : first.Followed (Text.trimmed reference.name) →
      (follow (Text.trimmed reference.name)).mapError mark =
        (follow' (Text.trimmed reference.name)).mapError mark) :
    (first.resolve follow reference).mapError mark =
      (second.resolve follow' reference).mapError mark := by
  rw [← same.resolve_eq]
  by_cases followed : first.Followed (Text.trimmed reference.name)
  · rw [resolve_of_followed followed, resolve_of_followed followed]
    rcases mapError_eq_mapError_iff.mp (agree followed) with
      ⟨text, found, found'⟩ | ⟨fault, fault', failed, failed', marked⟩
    · rw [found, found']
    · rw [failed, failed']
      simp only [telling fault fault' marked]
      split
      · rfl
      · exact congrArg Except.error marked
  · rcases resolve_of_not_followed followed with ⟨text, always⟩ | always <;> rw [always, always]

theorem mapError_substituteWith_congr (telling : Fault.Telling mark)
    (same : first.SamePolicy second) {text : String}
    (agree : ∀ reference, Template.Refers text reference →
      first.Followed (Text.trimmed reference.name) →
        (follow (Text.trimmed reference.name)).mapError mark =
          (follow' (Text.trimmed reference.name)).mapError mark) :
    (first.substituteWith follow text).mapError mark =
      (second.substituteWith follow' text).mapError mark := by
  rcases Template.exists_cuts text.toList with ⟨pieces, unclosed, cuts⟩
  rw [substituteWith_of_cuts _ _ cuts, substituteWith_of_cuts _ _ cuts]
  apply Template.mapError_worth_congr
  intro piece mem
  rcases piece.reference_or_text with ⟨reference, isReference, worths⟩ | ⟨_, text, worths⟩
  · rw [worths, worths]
    apply mapError_resolve_congr telling same
    exact agree reference ⟨pieces, unclosed, cuts, piece, mem, isReference⟩
  · rw [worths, worths]

/-- Lookups that find the same at their paths and behind the references in the text come to the
same. -/
theorem mapError_getWith_congr (telling : Fault.Telling mark) (same : first.SamePolicy second)
    (found : (first.rawText path).mapError mark = (second.rawText path').mapError mark)
    (agree : ∀ next, first.Follows path next →
      (follow next).mapError mark = (follow' next).mapError mark) :
    (first.getWith follow path).mapError mark = (second.getWith follow' path').mapError mark := by
  rw [getWith, getWith]
  apply mapError_bind_congr found
  intro value isValue
  cases value with
  | none => rfl
  | some text =>
      dsimp only
      rw [← same.1, ← same.2.1]
      split
      · apply mapError_bind_congr
        · apply mapError_substituteWith_congr telling same
          intro reference refers followed
          exact agree _ ⟨text, reference, isValue, refers, rfl, followed⟩
        · intro result _
          rfl
      · rfl

/-- What is found at a path, up to what a fault quotes. -/
theorem sort_locate {root : Node} (isRoot : first.root = some root) (path : String) :
    (first.locate path).mapError Fault.sort = root.along (Path.pieces path.toList) := by
  rw [locate_eq_answer_of_root isRoot, Node.sort_answer_steps]

theorem sort_locate_of_empty (isEmpty : first.root = none) (path : String) :
    (first.locate path).mapError Fault.sort = .error (.notFound, some 302) := by
  rw [locate, isEmpty]
  rfl

/-- Paths that are read as the same segments lead to the same. -/
theorem sort_locate_congr
    (read : Path.readPieces (Path.pieces path.toList) =
      Path.readPieces (Path.pieces path'.toList)) :
    (first.locate path).mapError Fault.sort = (first.locate path').mapError Fault.sort := by
  cases isRoot : first.root with
  | none => rw [sort_locate_of_empty isRoot, sort_locate_of_empty isRoot]
  | some root => rw [sort_locate isRoot, sort_locate isRoot, Node.along, Node.along, read]

section Found

variable (found : (first.locate path).mapError Fault.sort =
  (second.locate path').mapError Fault.sort)

include found

theorem has_congr : first.has path = second.has path' := by
  rw [has, has]
  rcases mapError_eq_mapError_iff.mp found with
    ⟨node, located, located'⟩ | ⟨fault, fault', failed, failed', _⟩
  · rw [located, located']
  · rw [failed, failed']
    rfl

theorem sort_keys_congr :
    (first.keys path).mapError Fault.sort = (second.keys path').mapError Fault.sort := by
  apply mapError_bind_congr found
  intro node _
  cases node <;> rfl

theorem sort_size_congr :
    (first.size path).mapError Fault.sort = (second.size path').mapError Fault.sort := by
  apply mapError_bind_congr found
  intro node _
  cases node <;> rfl

theorem sortOfLookup_rawText_congr :
    (first.rawText path).mapError Fault.sortOfLookup =
      (second.rawText path').mapError Fault.sortOfLookup := by
  apply mapError_bind_congr
  · apply mapError_congr found
    intro fault fault' same
    exact Fault.sortOfLookup_eq_of_sort same
  · intro node _
    cases node with
    | value text => rfl
    | object fields => dsimp only; split <;> split <;> rfl
    | array items => dsimp only; split <;> split <;> rfl

end Found

end Dictionary

end ConfigTree
