import ConfigTree.Node.Basic
import ConfigTree.Path.Cursor

/-!
# Walking down a tree

A walk reads a path and steps down the tree at the same time, so whatever stands in the way first
decides the fault: a step that cannot be taken, or a malformed piece of the path that the walk has
come to. What lies behind that point is not looked at.
-/

namespace ConfigTree

/-- Why a step cannot be taken. -/
inductive Obstacle where
  /-- An object has no field of the name. -/
  | missingKey (name : String)
  /-- A value has no fields. -/
  | keyOfValue (name : String)
  /-- An array has no fields. -/
  | keyOfArray (name : String)
  /-- An array is too short. -/
  | beyondEnd (position length : Nat)
  /-- A node that is no array has no positions. -/
  | indexOfOther (position : Nat) (kindName : String)
  deriving DecidableEq

namespace Obstacle

/-- The fault of a lookup that meets an obstacle at a place. -/
def fault (path : String) (taken : List Segment) (obstacle : Obstacle) : Fault :=
  let place := Path.renderPlace taken
  match obstacle with
  | .missingKey name =>
    { kind := .notFound path place
      hint := some s!"No key '{name}' here"
      code := some 301 }
  | .keyOfValue name =>
    { kind := .notFound path place
      hint := some s!"'{place}' is a value and has no property '{name}'"
      code := some 303 }
  | .keyOfArray name =>
    { kind := .typeMismatch path s!"Cannot look up property '{name}' in the array at '{place}'"
      hint := some "Use [index] to address array elements"
      code := some 306 }
  | .beyondEnd position length =>
    { kind := .outOfBounds path place position length
      code := some 304 }
  | .indexOfOther position kindName =>
    { kind := .typeMismatch path s!"Cannot apply index [{position}] to the {kindName} at '{place}'"
      hint := some "Only arrays can be indexed"
      code := some 305 }

end Obstacle

namespace Node

/-- The child that a segment leads to. -/
def step : Node → Segment → Except Obstacle Node
  | .value _, .key name => .error (.keyOfValue name)
  | .object fields, .key name =>
    match Fields.get? fields name with
    | some child => .ok child
    | none => .error (.missingKey name)
  | .array _, .key name => .error (.keyOfArray name)
  | .array items, .index position =>
    match items[position]? with
    | some child => .ok child
    | none => .error (.beyondEnd position items.length)
  | node, .index position => .error (.indexOfOther position node.kindName)

/-- Steps down from a node along the rest of a path. -/
def walk (node : Node) (cursor : Path.Cursor) : Except Fault Node :=
  match _handed : cursor.next with
  | (.error fault, _) => .error fault
  | (.ok none, _) => .ok node
  | (.ok (some segment), after) =>
    match node.step segment with
    | .error obstacle => .error (obstacle.fault cursor.path cursor.consumed)
    | .ok child => child.walk after
termination_by cursor.size
decreasing_by exact Path.Cursor.size_lt_of_next _handed

/-- The node at a path below a node. -/
def locate (node : Node) (path : String) : Except Fault Node :=
  node.walk (.start path)

theorem keysDistinct_step {node child : Node} {segment : Segment} (distinct : node.KeysDistinct)
    (stepped : node.step segment = .ok child) : child.KeysDistinct := by
  unfold step at stepped
  split at stepped
  · simp at stepped
  · split at stepped
    · next found =>
      cases distinct with
      | object _ below =>
        simp only [Except.ok.injEq] at stepped
        exact stepped ▸ below _ (Fields.mem_of_get? found)
    · simp at stepped
  · simp at stepped
  · split at stepped
    · next found =>
      cases distinct with
      | array below =>
        simp only [Except.ok.injEq] at stepped
        exact stepped ▸ below _ (List.mem_of_getElem? found)
    · simp at stepped
  · simp at stepped

theorem keysDistinct_walk {node found : Node} {cursor : Path.Cursor}
    (distinct : node.KeysDistinct) (walked : node.walk cursor = .ok found) :
    found.KeysDistinct := by
  fun_induction walk node cursor with
  | case1 => simp at walked
  | case2 node cursor =>
    simp only [Except.ok.injEq] at walked
    exact walked ▸ distinct
  | case3 => simp at walked
  | case4 node cursor segment after handed child stepped ih =>
    exact ih (keysDistinct_step distinct stepped) walked

theorem keysDistinct_locate {node found : Node} {path : String} (distinct : node.KeysDistinct)
    (located : node.locate path = .ok found) : found.KeysDistinct :=
  keysDistinct_walk distinct located

end Node

end ConfigTree
