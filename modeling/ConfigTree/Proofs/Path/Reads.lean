import ConfigTree.Proofs.Path.Render

/-!
# What can be read of a path

Reading a path ends at its first malformed piece. `Path.Reads` says this without the
reader: the pieces in front of that piece are all well-formed, and it gives none of
its segments, not even the name in front of a bad bracket.

No segment that a path hands out has an empty text. So the text of a place is empty
for the root alone.
-/

namespace ConfigTree

/-- What can be read of a path: the segments of the pieces in front of the first malformed piece,
and the fault of that piece. -/
inductive Path.Reads (path : String) : List Segment → Option Fault → Prop where
  | whole {segments : List Segment}
      (read : readPieces (pieces path.toList) = (segments, none)) : Reads path segments none
  | upTo {before behind : List (List Char)} {piece : List Char} {segments : List Segment}
      {bad : BadBracket} (split : pieces path.toList = before ++ piece :: behind)
      (read : readPieces before = (segments, none)) (malformed : readPiece piece = .error bad) :
      Reads path segments (some (bad.fault path))

namespace Path

variable {path : String} {segments : List Segment}

theorem readPieces_eq_malformed_iff {remaining : List (List Char)} {bad : BadBracket} :
    readPieces remaining = (segments, some bad) ↔
      ∃ before piece behind, remaining = before ++ piece :: behind ∧
        readPieces before = (segments, none) ∧ readPiece piece = .error bad := by
  constructor
  · intro read
    induction remaining generalizing segments with
    | nil => cases read
    | cons piece rest ih =>
        rw [readPieces] at read
        cases first : readPiece piece with
        | error own =>
            rw [first] at read
            cases read
            exact ⟨[], piece, rest, rfl, rfl, first⟩
        | ok own =>
            rcases own with ⟨key, position⟩
            rw [first] at read
            rcases restRead : readPieces rest with ⟨behind, ending⟩
            rw [restRead] at read
            cases read
            rcases ih restRead with ⟨before, malformed, more, rfl, beforeRead, isBad⟩
            refine ⟨piece :: before, malformed, more, rfl, ?_, isBad⟩
            simp [readPieces, first, beforeRead]
  · rintro ⟨before, piece, behind, rfl, read, malformed⟩
    simp [readPieces_append, read, readPieces, malformed]

theorem reads_of_readPieces {ending : Option BadBracket}
    (read : readPieces (pieces path.toList) = (segments, ending)) :
    Reads path segments (ending.map (·.fault path)) := by
  cases ending with
  | none => exact .whole read
  | some bad =>
      rcases readPieces_eq_malformed_iff.mp read with ⟨_, _, _, split, beforeRead, malformed⟩
      exact .upTo split beforeRead malformed

theorem Reads.exists_readPieces {fault? : Option Fault} (reads : Reads path segments fault?) :
    ∃ ending, readPieces (pieces path.toList) = (segments, ending) ∧
      fault? = ending.map (·.fault path) := by
  cases reads with
  | whole read => exact ⟨none, read, rfl⟩
  | upTo split read malformed =>
      exact ⟨some _, readPieces_eq_malformed_iff.mpr ⟨_, _, _, split, read, malformed⟩, rfl⟩

theorem Reads.tokenize_eq {fault? : Option Fault} (reads : Reads path segments fault?) :
    tokenize path = fault?.elim (.ok segments) .error := by
  rcases reads.exists_readPieces with ⟨ending, read, rfl⟩
  rw [tokenize, read]
  cases ending <;> rfl

theorem render_cons_ne_empty {first : Segment} (filled : first.text ≠ "") (rest : List Segment) :
    render (first :: rest) ≠ "" := by
  intro empty
  have written := toList_render_cons filled rest
  rw [empty] at written
  simp [filled] at written

/-- Only the root has no text of its own. -/
theorem renderPlace_eq {taken rest : List Segment} (handed : HandedOut (taken ++ rest)) :
    renderPlace taken = if taken = [] then "<root>" else render taken := by
  cases taken with
  | nil => rfl
  | cons first more =>
      have filled : first.text ≠ "" := by
        intro empty
        apply handed.beginsPiece.filled
        rw [empty]
        rfl
      rw [renderPlace, if_neg (render_cons_ne_empty filled more), if_neg (by simp)]

end Path

end ConfigTree
