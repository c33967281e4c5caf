import ConfigTree.Path.Piece

/-!
# Reading a path one segment at a time

A cursor hands out the segments of a path on demand and remembers what it has handed out, so that a
walk can stop at the first obstacle and still say where it is. A malformed piece is reported when
the cursor reaches it, once; afterwards the cursor is exhausted.
-/

namespace ConfigTree.Path

/-- A position in a path that is being read. -/
structure Cursor where
  /-- The whole path. -/
  path : String
  /-- What stands between the dots that have not been passed. -/
  remaining : List (List Char)
  /-- The second segment of the piece read last, while it has not been handed out. -/
  pending : Option Segment
  /-- The segments handed out so far. -/
  consumed : List Segment
  /-- Whether a malformed piece has been reported. -/
  failed : Bool

namespace Cursor

/-- A cursor in front of a path. -/
def start (path : String) : Cursor where
  path := path
  remaining := path.toList.splitOn '.'
  pending := none
  consumed := []
  failed := false

/-- The text of what has been handed out. -/
def resolved (cursor : Cursor) : String :=
  render cursor.consumed

/-- Goes on to the next piece that is not blank and hands out its first segment. -/
def advance (cursor : Cursor) : List (List Char) → Except Fault (Option Segment) × Cursor
  | [] => (.ok none, { cursor with remaining := [] })
  | part :: rest =>
    let piece := Text.trim part
    if piece = [] then cursor.advance rest
    else match readPiece piece with
      | .error bad =>
        (.error (bad.fault cursor.path), { cursor with remaining := rest, failed := true })
      | .ok (first, second) =>
        (.ok (some first),
          { cursor with
            remaining := rest, pending := second, consumed := cursor.consumed ++ [first] })

/-- Hands out the next segment, nothing at the end, or the fault of a malformed piece. -/
def next (cursor : Cursor) : Except Fault (Option Segment) × Cursor :=
  if cursor.failed then (.ok none, cursor)
  else match cursor.pending with
    | some segment =>
      (.ok (some segment),
        { cursor with pending := none, consumed := cursor.consumed ++ [segment] })
    | none => cursor.advance cursor.remaining

/-- A bound on the segments that are left. -/
def size (cursor : Cursor) : Nat :=
  2 * cursor.remaining.length + (if cursor.pending.isSome then 1 else 0)

theorem size_lt_of_advance {cursor after : Cursor} {segment : Segment} {parts : List (List Char)}
    (handed : cursor.advance parts = (.ok (some segment), after)) :
    after.size < 2 * parts.length := by
  induction parts with
  | nil => simp [advance] at handed
  | cons part rest ih =>
    simp only [advance] at handed
    split at handed
    · have := ih handed
      simp only [List.length_cons]
      omega
    · split at handed
      · simp at handed
      · simp only [Prod.mk.injEq] at handed
        simp only [← handed.2, size, List.length_cons]
        split <;> omega

/-- Each segment handed out brings the end nearer. -/
theorem size_lt_of_next {cursor after : Cursor} {segment : Segment}
    (handed : cursor.next = (.ok (some segment), after)) : after.size < cursor.size := by
  unfold next at handed
  split at handed
  · simp at handed
  · split at handed
    · next pending =>
      simp only [Prod.mk.injEq] at handed
      simp [← handed.2, size, pending]
    · next pending =>
      have := size_lt_of_advance handed
      simpa [size, pending] using this

end Cursor

end ConfigTree.Path
