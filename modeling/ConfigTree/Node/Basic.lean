import ConfigTree.Fields

/-!
# The configuration tree

A node is a value, an object or an array. Values are texts or an explicit null; numbers and truth
values of richer formats arrive here as texts. The fields of an object keep the order in which they
came in.

A node may be written with a repeated name; `Node.merged` gives what it means, and the property
`Node.KeysDistinct` says that nothing is repeated.
-/

namespace ConfigTree

/-- One node of a configuration tree, with all below it. -/
inductive Node where
  /-- A text, or an explicit null. -/
  | value (text : Option String)
  /-- Named children in order. -/
  | object (fields : List (String × Node))
  /-- Children in order. -/
  | array (items : List Node)

namespace Node

/-- The node of an explicit null. -/
def null : Node := .value none

/-- The node of a text. -/
def ofText (text : String) : Node := .value (some text)

/-- The word for the shape of a node. -/
def kindName : Node → String
  | .value _ => "value"
  | .object _ => "object"
  | .array _ => "array"

/-- Whether a node is a text or null. -/
def isValue : Node → Bool
  | .value _ => true
  | _ => false

/-- The text of a value that is not null. -/
def text? : Node → Option String
  | .value text => text
  | _ => none

/-- The names of the fields of an object. -/
def keys? : Node → Option (List String)
  | .object fields => some (Fields.keys fields)
  | _ => none

/-- The elements of an array. -/
def items? : Node → Option (List Node)
  | .array items => some items
  | _ => none

/-- The children of a node in order. -/
def children : Node → List Node
  | .value _ => []
  | .object fields => fields.map Prod.snd
  | .array items => items

/-- No object in the tree has two fields of one name. -/
inductive KeysDistinct : Node → Prop where
  | value (text : Option String) : KeysDistinct (.value text)
  | object {fields : List (String × Node)} (names : (Fields.keys fields).Nodup)
      (below : ∀ field ∈ fields, KeysDistinct field.2) : KeysDistinct (.object fields)
  | array {items : List Node} (below : ∀ item ∈ items, KeysDistinct item) :
      KeysDistinct (.array items)

mutual

/-- The meaning of a node with repeated names: the later value counts, at the earlier place. -/
def merged : Node → Node
  | .value text => .value text
  | .object fields => .object (mergedFields [] fields)
  | .array items => .array (mergedItems items)

/-- Enters fields into merged ones. -/
def mergedFields (done : List (String × Node)) : List (String × Node) → List (String × Node)
  | [] => done
  | (name, node) :: rest => mergedFields (Fields.insert name node.merged done) rest

/-- Merges each element. -/
def mergedItems : List Node → List Node
  | [] => []
  | item :: rest => item.merged :: mergedItems rest

end

mutual

/-- Equality of trees that does not look at the order of fields. -/
def same : Node → Node → Bool
  | .value first, .value second => first == second
  | .object first, .object second => first.length == second.length && sameFields first second
  | .array first, .array second => sameItems first second
  | _, _ => false

/-- Each of the fields is present among others, with the same value. -/
def sameFields : List (String × Node) → List (String × Node) → Bool
  | [], _ => true
  | (name, node) :: rest, others =>
    (match Fields.get? others name with
      | some other => node.same other
      | none => false) && sameFields rest others

/-- Elements agree one by one. -/
def sameItems : List Node → List Node → Bool
  | [], [] => true
  | first :: firsts, second :: seconds => first.same second && sameItems firsts seconds
  | _, _ => false

end

mutual

theorem keysDistinct_merged : ∀ node : Node, node.merged.KeysDistinct
  | .value text => .value text
  | .object fields => by
    have all := keysDistinct_mergedFields fields [] (by simp [Fields.keys]) (by simp)
    exact .object all.1 all.2
  | .array items => .array (keysDistinct_mergedItems items)

theorem keysDistinct_mergedFields :
    ∀ (fields done : List (String × Node)), (Fields.keys done).Nodup →
      (∀ field ∈ done, field.2.KeysDistinct) →
      (Fields.keys (mergedFields done fields)).Nodup ∧
        ∀ field ∈ mergedFields done fields, field.2.KeysDistinct
  | [], done, names, below => by
    simp only [mergedFields]
    exact ⟨names, below⟩
  | (name, node) :: rest, done, names, below => by
    simp only [mergedFields]
    refine keysDistinct_mergedFields rest _ (Fields.nodup_keys_insert _ _ names) ?_
    intro field member
    rcases Fields.mem_insert member with written | old
    · exact written ▸ keysDistinct_merged node
    · exact below field old

theorem keysDistinct_mergedItems :
    ∀ (items : List Node), ∀ item ∈ mergedItems items, item.KeysDistinct
  | [] => by simp [mergedItems]
  | first :: rest => by
    intro item member
    simp only [mergedItems, List.mem_cons] at member
    rcases member with rfl | member
    · exact keysDistinct_merged first
    · exact keysDistinct_mergedItems rest item member

end

end Node

end ConfigTree
