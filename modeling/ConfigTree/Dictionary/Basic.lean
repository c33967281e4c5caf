import ConfigTree.Environment
import ConfigTree.Node.Walk
import ConfigTree.Node.Write

/-!
# Dictionaries

A dictionary is a tree together with the policy for reading values out of it: whether references in
a value are looked up in the environment, in the tree itself, or both. Dictionaries are values; a
dictionary taken from a part of another one does not see later writes to it.
-/

namespace ConfigTree

/-- A tree, or nothing yet, and the policy for reading its values. -/
structure Dictionary where
  root : Option Node
  /-- References are looked up in the environment. -/
  substitutesEnvironment : Bool := false
  /-- References are looked up in the tree, as paths. -/
  substitutesConfiguration : Bool := false
  environment : Environment := .empty
  /-- No object in the tree has two fields of one name. -/
  keysDistinct : ∀ node, root = some node → node.KeysDistinct := by simp

namespace Dictionary

/-- The dictionary without a tree. -/
def empty : Dictionary where
  root := none

/-- The dictionary of a tree. Of repeated names the later value counts, at the earlier place. -/
def ofNode (node : Node) : Dictionary where
  root := some node.merged
  keysDistinct := by
    rintro _ ⟨⟩
    exact node.keysDistinct_merged

/-- The dictionary of an object without fields. -/
def emptyObject : Dictionary := ofNode (.object [])

/-- Whether there is no tree. -/
def isEmpty (dictionary : Dictionary) : Bool :=
  dictionary.root.isNone

/-- The fault of a lookup in a dictionary without a tree. -/
def emptyFault (path : String) : Fault where
  kind := .notFound path "<root>"
  hint := some "The dictionary is empty"
  code := some 302

/-- The node at a path. -/
def locate (dictionary : Dictionary) (path : String) : Except Fault Node :=
  match dictionary.root with
  | none => .error (emptyFault path)
  | some root => if Path.isRoot path then .ok root else root.locate path

theorem keysDistinct_of_locate {dictionary : Dictionary} {path : String} {node : Node}
    (located : dictionary.locate path = .ok node) : node.KeysDistinct := by
  unfold locate at located
  split at located
  · simp at located
  · next root =>
    split at located
    · simp only [Except.ok.injEq] at located
      exact located ▸ dictionary.keysDistinct _ root
    · exact Node.keysDistinct_locate (dictionary.keysDistinct _ root) located

/-- Whether a node is at a path. -/
def has (dictionary : Dictionary) (path : String) : Bool :=
  (dictionary.locate path).isOk

/-- The names of the fields of the object at a path, in order. -/
def keys (dictionary : Dictionary) (path : String) : Except Fault (List String) := do
  match ← dictionary.locate path with
  | .object fields => return Fields.keys fields
  | other =>
    throw
      { kind := .typeMismatch path s!"Object expected but {other.kindName} found"
        hint := some "Only objects have keys"
        code := some 309 }

/-- The number of children of the object or array at a path. -/
def size (dictionary : Dictionary) (path : String) : Except Fault Nat := do
  match ← dictionary.locate path with
  | .object fields => return fields.length
  | .array items => return items.length
  | .value _ =>
    throw
      { kind := .typeMismatch path "Array or object expected but value found"
        code := some 309 }

/-- A dictionary of the tree at a path, under the same policy. References in it are looked up from
its own root. -/
def sub (dictionary : Dictionary) (path : String) : Except Fault Dictionary :=
  match located : dictionary.locate path with
  | .error fault => .error fault
  | .ok node => .ok
    { dictionary with
      root := some node
      keysDistinct := by
        rintro _ ⟨⟩
        exact keysDistinct_of_locate located }

/-- Puts a leaf at the end of a chain of keys. -/
def put (dictionary : Dictionary) (keys : List String) (leaf : Option String) : Dictionary :=
  { dictionary with
    root := some (Node.put (.value leaf) keys dictionary.root)
    keysDistinct := by
      rintro _ ⟨⟩
      exact Node.keysDistinct_put (.value leaf) keys _ dictionary.keysDistinct }

/-- Puts a leaf at a path, making objects on the way. What was there, a whole subtree included, is
replaced. The answer is whether this could be done, and the dictionary that is there afterwards. -/
def writeInto (dictionary : Dictionary) (path : String) (leaf : Option String) :
    Except Fault Unit × Dictionary :=
  match Path.tokenize path with
  | .error fault => (.error fault, dictionary)
  | .ok segments =>
    match Node.writableKeys [] dictionary.root segments with
    | .error refusal => (.error (refusal.fault path), dictionary)
    | .ok keys => (.ok (), dictionary.put keys leaf)

/-- The dictionary behind a write, or the fault of a write that is refused. -/
def write (dictionary : Dictionary) (path : String) (leaf : Option String) :
    Except Fault Dictionary :=
  let (result, after) := dictionary.writeInto path leaf
  result.map fun () => after

/-- Writes a text at a path. -/
def set (dictionary : Dictionary) (path value : String) : Except Fault Dictionary :=
  dictionary.write path (some value)

/-- Writes an explicit null at a path. -/
def setNull (dictionary : Dictionary) (path : String) : Except Fault Dictionary :=
  dictionary.write path none

end Dictionary

end ConfigTree
