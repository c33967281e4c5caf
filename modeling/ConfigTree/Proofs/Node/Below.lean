import ConfigTree.Proofs.Node.Reach

/-!
# Writes below a node

Keys that lead from a root to a node lead through objects only. A write that goes on
behind them therefore meets an array exactly where it would meet one from the node
on, and what it makes of the whole tree is, at these keys, what it makes of the node.
-/

namespace ConfigTree.Node

variable {root node : Node} {name : String} {names behind : List String}

/-- A name leads into a field of an object. -/
theorem of_reach_key_eq_ok {rest : List Segment}
    (reached : root.reach (.key name :: rest) = .ok node) :
    ∃ fields child, root = .object fields ∧ Fields.get? fields name = some child ∧
      child.reach rest = .ok node := by
  rw [reach_cons] at reached
  cases root with
  | value text => cases reached
  | array items => cases reached
  | object fields =>
      cases found : Fields.get? fields name with
      | none =>
          rw [step, found] at reached
          cases reached
      | some child =>
          rw [step, found] at reached
          exact ⟨fields, child, rfl, found, reached⟩

theorem reach_key_of_get? {fields : List (String × Node)} {child : Node} {rest : List Segment}
    (found : Fields.get? fields name = some child) :
    reach (.object fields) (.key name :: rest) = child.reach rest := by
  rw [reach_cons, step, found]
  rfl

/-- On the way to a node there is no array. -/
theorem writable_append_iff (reached : root.reach (names.map Segment.key) = .ok node) :
    Writable (names ++ behind) (some root) ↔ Writable behind (some node) := by
  induction names generalizing root with
  | nil =>
      cases reached
      rfl
  | cons name names ih =>
      rcases of_reach_key_eq_ok reached with ⟨fields, child, rfl, found, deeper⟩
      rw [List.cons_append, Writable, fieldsOf, found, ih deeper]
      exact and_iff_right (by simp)

/-- What stands at the node after a write below it. -/
theorem reach_put_append (leaf : Node) (behind : List String)
    (reached : root.reach (names.map Segment.key) = .ok node) :
    (put leaf (names ++ behind) (some root)).reach (names.map Segment.key) =
      .ok (put leaf behind (some node)) := by
  induction names generalizing root with
  | nil =>
      cases reached
      rfl
  | cons name names ih =>
      rcases of_reach_key_eq_ok reached with ⟨fields, child, rfl, found, deeper⟩
      have below := ih deeper
      rw [List.cons_append, put, fieldsOf, found, List.map_cons]
      rw [reach_key_of_get? (Fields.get?_insert_self ..)]
      exact below

end ConfigTree.Node
