import ConfigTree.Node.Basic
import ConfigTree.Path.Piece

/-!
# Writing into a tree

A write names its place by keys only. It makes an object of every node on the way that is not one,
leaves the other fields of each object as they are, and puts the leaf at the end. Arrays are never
written through; `writableKeys` finds that out before anything changes.
-/

namespace ConfigTree

/-- Why a path cannot be written. -/
inductive WriteRefusal where
  /-- A segment is a position. -/
  | index (position : Nat)
  /-- The node that the given segments lead to is an array. -/
  | array (taken : List Segment)
  deriving DecidableEq

/-- The fault of a write that is refused. -/
def WriteRefusal.fault (path : String) : WriteRefusal → Fault
  | .index position =>
    { kind := .unsupported path
        s!"Setting values through array index [{position}] is not supported"
      hint := some "Only object keys can be written"
      code := some 310 }
  | .array taken =>
    { kind := .unsupported path s!"Cannot write through the array at '{Path.render taken}'"
      hint := some "Arrays cannot be modified with set"
      code := some 311 }

namespace Node

/-- The fields of an object; other nodes, and no node, give way to an object without fields. -/
def fieldsOf : Option Node → List (String × Node)
  | some (.object fields) => fields
  | _ => []

/-- The keys of segments that lead down from a node and can be written, where `taken` led to the
node. -/
def writableKeys (taken : List Segment) (node : Option Node) :
    List Segment → Except WriteRefusal (List String)
  | [] => .ok []
  | .index position :: _ => .error (.index position)
  | .key name :: rest =>
    match node with
    | some (.array _) => .error (.array taken)
    | _ => do
      let keys ← writableKeys (taken ++ [.key name]) (Fields.get? (fieldsOf node) name) rest
      return name :: keys

/-- Puts a leaf at the end of a chain of keys. -/
def put (leaf : Node) : List String → Option Node → Node
  | [], _ => leaf
  | key :: rest, node =>
    let fields := fieldsOf node
    .object (Fields.insert key (put leaf rest (Fields.get? fields key)) fields)

theorem keysDistinct_put {leaf : Node} (distinctLeaf : leaf.KeysDistinct) (keys : List String)
    (node : Option Node) (distinct : ∀ old, node = some old → old.KeysDistinct) :
    (put leaf keys node).KeysDistinct := by
  induction keys generalizing node with
  | nil => exact distinctLeaf
  | cons key rest ih =>
    have fields : (Fields.keys (fieldsOf node)).Nodup ∧
        ∀ field ∈ fieldsOf node, field.2.KeysDistinct := by
      unfold fieldsOf
      split
      · cases distinct _ rfl with
        | object names below => exact ⟨names, below⟩
      · exact ⟨by simp [Fields.keys], by simp⟩
    refine .object (Fields.nodup_keys_insert _ _ fields.1) ?_
    intro field member
    rcases Fields.mem_insert member with written | old
    · rw [written]
      exact ih _ (fun child found => fields.2 _ (Fields.mem_of_get? found))
    · exact fields.2 field old

end Node

end ConfigTree
