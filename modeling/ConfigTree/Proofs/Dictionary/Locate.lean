import ConfigTree.Dictionary.Lookup
import ConfigTree.Proofs.Node.Look
import ConfigTree.Proofs.Path.Pieces

/-!
# Finding a node in a dictionary

A path that is written as the root is not read when a node is found. It has no
pieces, so reading it would lead to the root as well: finding a node is always
reading the path and stepping down from the root.
-/

namespace ConfigTree.Dictionary

/-- Finding a node is stepping down from the root, also where the path is written as the root. -/
theorem locate_eq_answer_of_root {dictionary : Dictionary} {root : Node}
    (isRoot : dictionary.root = some root) (path : String) :
    dictionary.locate path =
      Node.answer path (Path.readPieces (Path.pieces path.toList)).2
        (root.steps [] (Path.readPieces (Path.pieces path.toList)).1) := by
  simp only [locate, isRoot]
  split
  · next written =>
    simp [Path.pieces_eq_nil_of_isRoot written, Path.readPieces, Node.steps, Node.answer]
  · exact root.locate_eq_answer path

/-- The outcome of asking for the text at a path. -/
theorem outcome_rawText (dictionary : Dictionary) (path : String) :
    outcome (dictionary.rawText path) =
      (outcome (dictionary.locate path)).bind Node.scalar := by
  unfold rawText
  cases dictionary.locate path with
  | error fault => rfl
  | ok node =>
      cases node with
      | value text => rfl
      | object fields =>
          simp only [bind, Except.bind]
          split <;> rfl
      | array items =>
          simp only [bind, Except.bind]
          split <;> rfl

/-- Asking for the text at a path of keys is looking along the keys. -/
theorem outcome_rawText_of_keys (dictionary : Dictionary) {path : String} {keys : List String}
    (read : Path.tokenize path = .ok (keys.map Segment.key)) :
    outcome (dictionary.rawText path) = Node.look keys dictionary.root := by
  rw [outcome_rawText]
  cases isRoot : dictionary.root with
  | none => simp [locate, isRoot, emptyFault, Fault.family, Except.bind]
  | some root =>
      rw [locate_eq_answer_of_root isRoot, Path.tokenize_eq_ok_iff.mp read]
      exact Node.outcome_answer_steps_keys path [] root keys

/-- The fault of a path that leads to no node has a number below 500. -/
theorem code_lt_of_locate_eq_error {dictionary : Dictionary} {path : String} {fault : Fault}
    (failed : dictionary.locate path = .error fault) : ∃ code < 500, fault.code = some code := by
  cases isRoot : dictionary.root with
  | none =>
      simp only [locate, isRoot, Except.error.injEq] at failed
      subst fault
      exact ⟨302, by decide, rfl⟩
  | some root =>
      rw [locate_eq_answer_of_root isRoot] at failed
      cases stepped : root.steps [] (Path.readPieces (Path.pieces path.toList)).1 with
      | error stopped =>
          rcases stopped with ⟨taken, obstacle⟩
          rw [stepped] at failed
          cases failed
          cases obstacle <;> exact ⟨_, by decide, rfl⟩
      | ok node =>
          rw [stepped] at failed
          cases malformed : (Path.readPieces (Path.pieces path.toList)).2 with
          | none => simp [malformed, Node.answer] at failed
          | some bad =>
              rw [malformed] at failed
              cases failed
              cases bad <;> exact ⟨_, by decide, rfl⟩

theorem code_lt_of_rawText_eq_error {dictionary : Dictionary} {path : String} {fault : Fault}
    (failed : dictionary.rawText path = .error fault) : ∃ code < 500, fault.code = some code := by
  unfold rawText at failed
  cases located : dictionary.locate path with
  | error missing =>
      rw [located] at failed
      cases failed
      exact code_lt_of_locate_eq_error located
  | ok node =>
      rw [located] at failed
      cases node with
      | value text => cases failed
      | object fields =>
          simp only [bind, Except.bind] at failed
          split at failed <;> cases failed <;> exact ⟨_, by decide, rfl⟩
      | array items =>
          simp only [bind, Except.bind] at failed
          split at failed <;> cases failed <;> exact ⟨_, by decide, rfl⟩

end ConfigTree.Dictionary
