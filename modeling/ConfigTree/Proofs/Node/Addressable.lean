import ConfigTree.Node.Write
import ConfigTree.Proofs.Node.Steps
import ConfigTree.Proofs.Path.Names

/-!
# Trees that paths of names reach everywhere

`Node.At` says which node stands at a list of names, without asking whether a
path can be written for them. In a tree without arrays, in which every name
names itself, it can: the names joined by dots. Putting a leaf along such names
keeps a tree of this kind, so nothing gets into it that a path cannot reach.
-/

namespace ConfigTree.Node

/-- There are no arrays in the tree, and each name in it can be written as a path of this one
name. -/
inductive Addressable : Node → Prop where
  | value (text : Option String) : Addressable (.value text)
  | object {fields : List (String × Node)}
      (names : ∀ name ∈ Fields.keys fields, Path.tokenize name = .ok [.key name])
      (below : ∀ field ∈ fields, Addressable field.2) : Addressable (.object fields)

/-- A node stands at a list of names: one field of an object after the other leads to it. -/
inductive At : Node → List String → Node → Prop where
  | here {node : Node} : At node [] node
  | field {fields : List (String × Node)} {name : String} {child node : Node}
      {names : List String} (member : (name, child) ∈ fields) (deeper : At child names node) :
      At (.object fields) (name :: names) node

theorem addressable_fieldsOf {node : Option Node}
    (addressable : ∀ old, node = some old → old.Addressable) :
    (∀ name ∈ Fields.keys (fieldsOf node), Path.tokenize name = .ok [.key name]) ∧
      ∀ field ∈ fieldsOf node, field.2.Addressable := by
  unfold fieldsOf
  split
  · cases addressable _ rfl with
    | object names below => exact ⟨names, below⟩
  · simp [Fields.keys]

/-- A leaf put along names that name themselves leaves nothing behind that a path cannot reach. -/
theorem addressable_put (leaf : Option String) {keys : List String} {node : Option Node}
    (each : ∀ key ∈ keys, Path.tokenize key = .ok [.key key])
    (addressable : ∀ old, node = some old → old.Addressable) :
    (put (.value leaf) keys node).Addressable := by
  induction keys generalizing node with
  | nil => exact .value leaf
  | cons key rest ih =>
      rw [List.forall_mem_cons] at each
      rcases each with ⟨keyRead, restRead⟩
      rcases addressable_fieldsOf addressable with ⟨names, below⟩
      refine .object ?_ ?_
      · intro name name_mem
        rw [Fields.keys_insert] at name_mem
        split at name_mem
        · exact names name name_mem
        · rcases List.mem_append.mp name_mem with old | new
          · exact names name old
          · rw [List.mem_singleton] at new
            rw [new, keyRead]
      · intro field field_mem
        rcases Fields.mem_insert field_mem with isPut | old
        · rw [isPut]
          exact ih restRead fun child found => below _ (Fields.mem_of_get? found)
        · exact below field old

theorem At.names {root node : Node} {names : List String} (stands : root.At names node)
    (addressable : root.Addressable) : ∀ name ∈ names, Path.tokenize name = .ok [.key name] := by
  induction stands with
  | here => simp
  | field member deeper ih =>
      cases addressable with
      | object names below =>
          rw [List.forall_mem_cons]
          exact ⟨names _ (List.mem_map_of_mem member), ih (below _ member)⟩

theorem At.steps {root node : Node} {names : List String} (stands : root.At names node)
    (distinct : root.KeysDistinct) (taken : List Segment) :
    root.steps taken (names.map Segment.key) = .ok node := by
  induction stands generalizing taken with
  | here => rfl
  | @field fields name child node names member deeper ih =>
      cases distinct with
      | object distinctNames distinctBelow =>
          have found : Fields.get? fields name = some child :=
            Fields.get?_of_mem distinctNames member
          simp only [List.map_cons, Node.steps, step, found]
          exact ih (distinctBelow _ member) (taken ++ [.key name])

end ConfigTree.Node
