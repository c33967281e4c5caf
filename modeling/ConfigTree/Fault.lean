/-!
# Faults

What can go wrong with a configuration, and the text shown for it. Each kind of fault carries what
its text quotes. A hint on what to do and a number may follow.
-/

namespace ConfigTree

namespace Fault

/-- The kinds of faults, each with the texts and numbers that it quotes. -/
inductive Kind where
  /-- A path has a malformed bracket. -/
  | pathSyntax (path segment message : String)
  /-- Nothing is at the path; the only kind that a default repairs. -/
  | notFound (path resolved : String)
  /-- An array is too short for an index. -/
  | outOfBounds (path resolved : String) (index length : Nat)
  /-- A node of another shape is at the path. -/
  | typeMismatch (path message : String)
  /-- The path cannot be written. -/
  | unsupported (path message : String)
  /-- A scalar does not read as the wanted type. -/
  | conversion (path value target : String)
  /-- A reference inside a value cannot be replaced. -/
  | substitution (name message : String)
  /-- A line of key-value text cannot be read. -/
  | line (number : Nat) (content message : String)
  /-- The options contradict each other or cannot be read. -/
  | invalidOptions (message : String)
  /-- A text is not well-formed JSON. -/
  | json (message : String) (line column : Nat)
  /-- A file cannot be used. -/
  | file (message path : String)
  deriving DecidableEq

/-- The text of a kind of fault. -/
def Kind.describe : Kind → String
  | .pathSyntax path segment message =>
    s!"Path Syntax Error in '{path}': {message} (segment '{segment}')"
  | .notFound path resolved => s!"Not Found: path '{path}' does not exist at '{resolved}'"
  | .outOfBounds path resolved index length =>
    s!"Out Of Bounds: index {index} in '{path}' exceeds array length {length} at '{resolved}'"
  | .typeMismatch path message => s!"Type Error in '{path}': {message}"
  | .unsupported path message => s!"Unsupported Operation on '{path}': {message}"
  | .conversion path value target =>
    s!"Conversion Error: cannot convert {value} at '{path}' to {target}"
  | .substitution name message => s!"Substitution Error for '{name}': {message}"
  | .line number content message => s!"Parse Error at line {number} ('{content}'): {message}"
  | .invalidOptions message => s!"Invalid Parser Options: {message}"
  | .json message row column => s!"JSON Error at {row}:{column}: {message}"
  | .file message path => s!"File Error '{path}': {message}"

end Fault

/-- One fault: its kind, an optional hint on what to do, and an optional number. -/
structure Fault where
  kind : Fault.Kind
  hint : Option String := none
  code : Option Nat := none
  deriving DecidableEq

namespace Fault

/-- The whole text of a fault. -/
def display (fault : Fault) : String :=
  let hint := match fault.hint with
    | some hint => s!" Hint: {hint}"
    | none => ""
  let code := match fault.code with
    | some code => s!" Code: {code}"
    | none => ""
  s!"[CONF] {fault.kind.describe}{hint}{code}"

/-- Whether a default may stand in for the value that was asked for. -/
def isNotFound (fault : Fault) : Bool :=
  match fault.kind with
  | .notFound .. => true
  | _ => false

/-- Enters the path of a lookup into a conversion fault; other faults know their path. -/
def withPath (path : String) (fault : Fault) : Fault :=
  match fault.kind with
  | .conversion _ value target => { fault with kind := .conversion path value target }
  | _ => fault

/-- A fault about a file as a whole. -/
def onFile (message path : String) : Fault where
  kind := .file message path
  hint := some "Check file path and permissions"
  code := some 700

end Fault

end ConfigTree
