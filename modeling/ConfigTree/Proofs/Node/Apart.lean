import ConfigTree.Proofs.Node.Reach

/-!
# Places apart from a write

A write goes down a list of keys, and segments go down with it as long as their
names are the same. Where a name differs, the ways part: the write changes nothing
below the other name. On the common way it may have made objects, out of values or
out of nothing. Before, the segments did not lead past such a node either, because
nothing has a field there; now an object has no field of the other name. So the
segments lead to the same node as before, or again to nothing.
-/

namespace ConfigTree

/-- Two lists of names differ at a position that both have. -/
def PartWays (first second : List String) : Prop :=
  ∃ (position : Nat) (name other : String), first[position]? = some name ∧
    second[position]? = some other ∧ name ≠ other

theorem partWays_cons_iff {name other : String} {first second : List String} :
    PartWays (name :: first) (other :: second) ↔ name ≠ other ∨ PartWays first second := by
  constructor
  · rintro ⟨position, left, right, isLeft, isRight, different⟩
    cases position with
    | zero =>
        simp only [List.getElem?_cons_zero, Option.some.injEq] at isLeft isRight
        subst isLeft isRight
        exact .inl different
    | succ position => exact .inr ⟨position, left, right, isLeft, isRight, different⟩
  · rintro (different | ⟨position, left, right, isLeft, isRight, different⟩)
    · exact ⟨0, name, other, rfl, rfl, different⟩
    · exact ⟨position + 1, left, right, isLeft, isRight, different⟩

theorem PartWays.exists_cons {first second : List String} (apart : PartWays first second) :
    ∃ name rest other rest', first = name :: rest ∧ second = other :: rest' := by
  rcases apart with ⟨position, name, other, isName, isOther, _⟩
  cases first with
  | nil => simp at isName
  | cons name rest =>
      cases second with
      | nil => simp at isOther
      | cons other rest' => exact ⟨name, rest, other, rest', rfl, rfl⟩

/-- The names in front of the first position. -/
def Segment.leadingNames : List Segment → List String
  | .key name :: rest => name :: leadingNames rest
  | _ => []

/-- The names in a path in front of its first position or malformed piece. -/
def Path.leadingNames (path : String) : List String :=
  Segment.leadingNames (readPieces (pieces path.toList)).1

namespace Node

/-- Steps down along segments from a node, or from nothing. -/
def reachFrom (segments : List Segment) : Option Node → Except Fault.Family Node
  | none => .error .notFound
  | some node => (node.reach segments).mapError Obstacle.family

/-- A node that is no array is stepped down from as if it were an object. -/
theorem reachFrom_key {node : Option Node} (noArray : ∀ items, node ≠ some (.array items))
    (name : String) (rest : List Segment) :
    reachFrom (.key name :: rest) node = reachFrom rest (Fields.get? (fieldsOf node) name) := by
  cases node with
  | none => rfl
  | some node =>
      cases node with
      | value text => rfl
      | object fields =>
          rw [reachFrom, reach_cons, step, fieldsOf]
          cases Fields.get? fields name <;> rfl
      | array items => exact absurd rfl (noArray items)

/-- Segments lead to the same place before and after a write from whose keys they part. -/
theorem reachFrom_put_of_partWays (leaf : Node) {keys : List String} {segments : List Segment}
    {node : Option Node} (writable : Writable keys node)
    (apart : PartWays keys (Segment.leadingNames segments)) :
    reachFrom segments (some (put leaf keys node)) = reachFrom segments node := by
  induction keys generalizing segments node with
  | nil =>
      rcases apart.exists_cons with ⟨_, _, _, _, impossible, _⟩
      cases impossible
  | cons key keys ih =>
      rcases writable with ⟨noArray, writableBelow⟩
      cases segments with
      | nil =>
          rcases apart.exists_cons with ⟨_, _, _, _, _, impossible⟩
          cases impossible
      | cons segment rest =>
          cases segment with
          | index position =>
              rcases apart.exists_cons with ⟨_, _, _, _, _, impossible⟩
              cases impossible
          | key name =>
              rw [Segment.leadingNames, partWays_cons_iff] at apart
              rw [reachFrom_key noArray, reachFrom_key (by simp [put]), put, fieldsOf]
              by_cases same : key = name
              · subst name
                rw [Fields.get?_insert_self]
                apply ih writableBelow
                exact apart.resolve_left (fun different => different rfl)
              · rw [Fields.get?_insert_of_ne _ _ same]

end Node

end ConfigTree
