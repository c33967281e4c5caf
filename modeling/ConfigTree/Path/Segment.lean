/-!
# Path segments

A path leads from the root of a tree to a node, one segment at a time: into the field of an object
by its name, or into an array by a position. Written down, names are joined by dots and positions
follow in brackets, as in `server.ports[0]`.
-/

namespace ConfigTree

/-- One step of a path. -/
inductive Segment where
  /-- Into the field of an object. -/
  | key (name : String)
  /-- Into an element of an array. -/
  | index (position : Nat)
  deriving DecidableEq

namespace Segment

/-- The text of one segment on its own. -/
def text : Segment → String
  | .key name => name
  | .index position => s!"[{position}]"

/-- Writes a segment behind a path. A dot stands only between a name and a text before it. -/
def writeBehind (path : String) : Segment → String
  | .key name => if path = "" then name else s!"{path}.{name}"
  | .index position => s!"{path}[{position}]"

end Segment

namespace Path

/-- The text of a list of segments. -/
def render (segments : List Segment) : String :=
  segments.foldl Segment.writeBehind ""

/-- The text of the place that segments lead to, with a word for the root. -/
def renderPlace (segments : List Segment) : String :=
  let place := render segments
  if place = "" then "<root>" else place

end Path

end ConfigTree
