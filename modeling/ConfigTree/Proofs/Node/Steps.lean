import ConfigTree.Node.Walk
import ConfigTree.Proofs.Path.Pieces

/-!
# Walking as reading and then stepping

A walk reads the path while it descends. Here the two are taken apart: all
segments in front of the first malformed piece are read first, then the tree is
descended along them. An obstacle on the way comes before the malformed piece,
and a malformed piece comes before the node that the segments lead to.
-/

namespace ConfigTree.Node

/-- Steps down along segments. An obstacle comes with the segments taken before it. -/
def steps (taken : List Segment) (node : Node) :
    List Segment → Except (List Segment × Obstacle) Node
  | [] => .ok node
  | segment :: rest =>
    match node.step segment with
    | .error obstacle => .error (taken, obstacle)
    | .ok child => child.steps (taken ++ [segment]) rest

theorem steps_append {node found : Node} {taken first : List Segment}
    (stepped : node.steps taken first = .ok found) (second : List Segment) :
    node.steps taken (first ++ second) = found.steps (taken ++ first) second := by
  induction first generalizing node taken with
  | nil =>
      cases stepped
      simp
  | cons segment rest ih =>
      rw [steps] at stepped
      rw [List.cons_append, steps]
      cases passed : node.step segment with
      | error obstacle =>
          rw [passed] at stepped
          cases stepped
      | ok child =>
          rw [passed] at stepped
          dsimp only
          rw [ih stepped, List.append_assoc, List.singleton_append]

/-- What a walk along a path answers when it has stepped down the segments in front of a malformed
piece, if there is one. -/
def answer (path : String) (bad : Option BadBracket) :
    Except (List Segment × Obstacle) Node → Except Fault Node
  | .error (taken, obstacle) => .error (obstacle.fault path taken)
  | .ok node =>
    match bad with
    | none => .ok node
    | some bad => .error (bad.fault path)

theorem walk_of_next_eq_ok {node : Node} {cursor after : Path.Cursor} {segment : Segment}
    (handed : cursor.next = (.ok (some segment), after)) :
    node.walk cursor =
      match node.step segment with
      | .error obstacle => .error (obstacle.fault cursor.path cursor.consumed)
      | .ok child => child.walk after := by
  rw [walk]
  split
  · next failed => simp [handed] at failed
  · next exhausted => simp [handed] at exhausted
  · next again =>
    rw [handed] at again
    cases again
    rfl

theorem walk_of_next_eq_error {node : Node} {cursor after : Path.Cursor} {fault : Fault}
    (failed : cursor.next = (.error fault, after)) : node.walk cursor = .error fault := by
  rw [walk]
  split
  · next again =>
    rw [failed] at again
    cases again
    rfl
  · next exhausted => simp [failed] at exhausted
  · next handed => simp [failed] at handed

theorem walk_of_next_eq_none {node : Node} {cursor after : Path.Cursor}
    (ended : cursor.next = (.ok none, after)) : node.walk cursor = .ok node := by
  rw [walk]
  split
  · next failed => simp [ended] at failed
  · rfl
  · next handed => simp [ended] at handed

/-- A walk that stands between two pieces. -/
theorem walk_eq_answer (path : String) {remaining pieces : List (List Char)}
    (left : Path.piecesAmong remaining = pieces) (node : Node) (taken : List Segment) :
    node.walk ⟨path, remaining, none, taken, false⟩ =
      answer path (Path.readPieces pieces).2 (node.steps taken (Path.readPieces pieces).1) := by
  have passes := Path.Cursor.passes_next path remaining taken
  generalize handed : Path.Cursor.next ⟨path, remaining, none, taken, false⟩ = answer at passes
  induction pieces generalizing remaining node taken answer with
  | nil =>
      cases passes with
      | atEnd nothing => exact walk_of_next_eq_none handed
      | malformed isCons | piece isCons => cases left.symm.trans isCons
  | cons piece rest ih =>
      cases passes with
      | atEnd nothing => cases left.symm.trans nothing
      | malformed isCons read =>
          cases left.symm.trans isCons
          rw [walk_of_next_eq_error handed]
          simp [Path.readPieces, read, steps, Node.answer]
      | @piece _ behind first second isCons read =>
          cases left.symm.trans isCons
          have goesOn := fun node taken => ih rfl node taken _ rfl (Path.Cursor.passes_next ..)
          rw [walk_of_next_eq_ok handed]
          simp only [Path.readPieces, read, List.cons_append, steps]
          cases stepped : node.step first with
          | error obstacle => simp [Node.answer]
          | ok child =>
              cases second with
              | none => simpa using goesOn child (taken ++ [first])
              | some position =>
                  -- The second segment of the piece waits in the cursor for one more call.
                  simp only [Option.toList_some, List.cons_append, List.nil_append, steps]
                  rw [walk_of_next_eq_ok (by simp only [Path.Cursor.next]; rfl)]
                  cases child.step position with
                  | error obstacle => simp [Node.answer]
                  | ok grandchild => exact goesOn grandchild (taken ++ [first] ++ [position])

theorem locate_eq_answer (node : Node) (path : String) :
    node.locate path = answer path (Path.readPieces (Path.pieces path.toList)).2
      (node.steps [] (Path.readPieces (Path.pieces path.toList)).1) :=
  walk_eq_answer path rfl node []

end ConfigTree.Node
