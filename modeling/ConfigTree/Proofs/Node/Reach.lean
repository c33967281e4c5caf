import ConfigTree.Proofs.Node.Look
import ConfigTree.Proofs.Path.Pieces

/-!
# Where segments lead

`Node.reach` steps down along segments and keeps no note of the way, so it can be
cut anywhere: what lies behind the cut depends only on the node that is reached
there. Of the fault of a walk it knows all but the path and the place, that is,
the family and the number.
-/

namespace ConfigTree

namespace Obstacle

/-- The sort of the fault of an obstacle. -/
def sort (obstacle : Obstacle) : Fault.Family × Option Nat :=
  (obstacle.fault "" []).sort

@[simp]
theorem sort_fault (path : String) (taken : List Segment) (obstacle : Obstacle) :
    (obstacle.fault path taken).sort = obstacle.sort := by
  cases obstacle <;> rfl

end Obstacle

namespace BadBracket

/-- The sort of the fault of a malformed bracket. -/
def sort (bad : BadBracket) : Fault.Family × Option Nat :=
  (bad.fault "").sort

@[simp]
theorem sort_fault (path : String) (bad : BadBracket) : (bad.fault path).sort = bad.sort := by
  cases bad <;> rfl

end BadBracket

namespace Node

/-- Steps down along segments. -/
def reach (node : Node) (segments : List Segment) : Except Obstacle Node :=
  segments.foldlM step node

@[simp]
theorem reach_nil (node : Node) : node.reach [] = .ok node := rfl

theorem reach_cons (node : Node) (segment : Segment) (rest : List Segment) :
    node.reach (segment :: rest) = (node.step segment).bind (·.reach rest) :=
  List.foldlM_cons

theorem reach_append (node : Node) (first second : List Segment) :
    node.reach (first ++ second) = (node.reach first).bind (·.reach second) :=
  List.foldlM_append

theorem steps_eq_reach (taken : List Segment) (node : Node) (segments : List Segment) :
    (node.steps taken segments).mapError Prod.snd = node.reach segments := by
  induction segments generalizing node taken with
  | nil => rfl
  | cons segment rest ih =>
      rw [reach_cons, steps]
      cases node.step segment with
      | error obstacle => rfl
      | ok child => exact ih (taken ++ [segment]) child

/-- What a walk along the pieces of a path comes to, up to what its fault quotes. -/
def along (node : Node) (remaining : List (List Char)) :
    Except (Fault.Family × Option Nat) Node :=
  match node.reach (Path.readPieces remaining).1 with
  | .error obstacle => .error obstacle.sort
  | .ok found =>
    match (Path.readPieces remaining).2 with
    | none => .ok found
    | some bad => .error bad.sort

theorem sort_answer_steps (path : String) (taken : List Segment) (node : Node)
    (remaining : List (List Char)) :
    (answer path (Path.readPieces remaining).2
      (node.steps taken (Path.readPieces remaining).1)).mapError Fault.sort =
        node.along remaining := by
  rw [along, ← steps_eq_reach taken]
  cases node.steps taken (Path.readPieces remaining).1 with
  | error stopped => simp [answer]
  | ok found => cases (Path.readPieces remaining).2 <;> simp [answer]

/-- A walk can be interrupted between two pieces. -/
theorem along_append (node : Node) (first second : List (List Char)) :
    node.along (first ++ second) = (node.along first).bind (·.along second) := by
  rw [along, Path.readPieces_append, along]
  rcases Path.readPieces first with ⟨segments, _ | bad⟩
  · simp only [reach_append]
    cases node.reach segments <;> rfl
  · cases node.reach segments <;> rfl

end Node

end ConfigTree
