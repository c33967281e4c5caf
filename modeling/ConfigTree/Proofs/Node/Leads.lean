import ConfigTree.Proofs.Node.Reach

/-!
# The node that segments lead to

`Node.Leads` says which node stands at a list of segments, one child after the other:
a name leads into a field of an object, a position into an element of an array.
`Node.LeadsFrom` says the same of a root that may be missing.

One equation is behind all statements on writes: going into a field by its name asks
for no more than the fields of the node, and a node that is no object has none. So
what a name leads to does not depend on whether the node is missing, a value or an
array.
-/

namespace ConfigTree.Node

/-- Segments lead from a node to a node at or below it. -/
inductive Leads : Node → List Segment → Node → Prop where
  | here {node : Node} : Leads node [] node
  | field {fields : List (String × Node)} {name : String} {child node : Node}
      {rest : List Segment} (found : Fields.get? fields name = some child)
      (deeper : Leads child rest node) : Leads (.object fields) (.key name :: rest) node
  | element {items : List Node} {position : Nat} {child node : Node} {rest : List Segment}
      (found : items[position]? = some child) (deeper : Leads child rest node) :
      Leads (.array items) (.index position :: rest) node

/-- Segments lead to a node from a root, if there is a root. -/
def LeadsFrom (root : Option Node) (segments : List Segment) (node : Node) : Prop :=
  ∃ start, root = some start ∧ start.Leads segments node

variable {root node : Node} {segment : Segment} {segments rest : List Segment}

theorem leads_cons_iff :
    root.Leads (segment :: rest) node ↔
      ∃ child, root.step segment = .ok child ∧ child.Leads rest node := by
  constructor
  · intro leads
    cases leads with
    | @field fields name child _ _ found deeper => exact ⟨child, by simp [step, found], deeper⟩
    | @element items position child _ _ found deeper => exact ⟨child, by simp [step, found], deeper⟩
  · rintro ⟨child, stepped, deeper⟩
    unfold step at stepped
    split at stepped
    · cases stepped
    · split at stepped
      · next found =>
        cases stepped
        exact .field found deeper
      · cases stepped
    · cases stepped
    · split at stepped
      · next found =>
        cases stepped
        exact .element found deeper
      · cases stepped
    · cases stepped

theorem leads_iff_reach : root.Leads segments node ↔ root.reach segments = .ok node := by
  induction segments generalizing root with
  | nil =>
      rw [reach_nil, Except.ok.injEq]
      constructor
      · intro leads
        cases leads
        rfl
      · rintro rfl
        exact .here
  | cons segment rest ih =>
      rw [leads_cons_iff, reach_cons]
      cases root.step segment with
      | error obstacle => simp [Except.bind]
      | ok child => simp [Except.bind, ih]

@[simp]
theorem leadsFrom_nil_iff {root : Option Node} : LeadsFrom root [] node ↔ root = some node := by
  constructor
  · rintro ⟨start, rfl, leads⟩
    cases leads
    rfl
  · rintro rfl
    exact ⟨node, rfl, .here⟩

theorem leadsFrom_key_iff {root : Option Node} {name : String} :
    LeadsFrom root (.key name :: rest) node ↔
      LeadsFrom (Fields.get? (fieldsOf root) name) rest node := by
  constructor
  · rintro ⟨start, rfl, leads⟩
    cases leads with
    | field found deeper => exact ⟨_, found, deeper⟩
  · rintro ⟨child, found, deeper⟩
    cases root with
    | none => cases found
    | some start =>
        cases start with
        | value text => cases found
        | array items => cases found
        | object fields => exact ⟨_, rfl, .field found deeper⟩

/-- A position leads on in an array only. -/
theorem not_leadsFrom_index {root : Option Node} (noArray : ∀ items, root ≠ some (.array items))
    (position : Nat) : ¬LeadsFrom root (.index position :: rest) node := by
  rintro ⟨start, rfl, leads⟩
  cases leads with
  | element found deeper => exact noArray _ rfl

end ConfigTree.Node
