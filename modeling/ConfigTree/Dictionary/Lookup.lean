import ConfigTree.Dictionary.Basic
import ConfigTree.Template

/-!
# Looking up values

A lookup finds the value at a path and, if the policy says so, replaces the references in its text.
A reference is looked up in the environment first and then as a path in the tree, where the text it
finds may hold references of its own. Such chains are followed a limited number of levels; a chain
that comes back to itself therefore ends in a fault. A default stands in for a name that is found
nowhere, not for any other fault.
-/

namespace ConfigTree.Dictionary

/-- How many levels of references inside referenced texts are followed. -/
def nestingLimit : Nat := 32

/-- The fault of a reference below the last level. -/
def tooDeep (name : String) : Fault where
  kind := .substitution name s!"Reference nesting exceeds {nestingLimit} levels"
  hint := some "Check for a value that refers back to itself"
  code := some 503

/-- The text at a path as it stands in the tree. -/
def rawText (dictionary : Dictionary) (path : String) : Except Fault (Option String) := do
  match ← dictionary.locate path with
  | .value text => return text
  | other =>
    if Path.isRoot path then
      throw
        { kind := .typeMismatch path s!"Root is not a value but an {other.kindName}"
          hint := some "Query a path below the root instead"
          code := some 308 }
    else
      throw
        { kind := .typeMismatch path s!"Value expected but {other.kindName} found"
          hint := some "Use get_config to work with objects and arrays"
          code := some 307 }

/-- The fault of a reference whose name is found nowhere. -/
def unresolved (dictionary : Dictionary) (name : String) : Fault :=
  let places :=
    (if dictionary.substitutesEnvironment then ["environment"] else []) ++
      (if dictionary.substitutesConfiguration then ["configuration"] else [])
  { kind := .substitution name ("Variable not found in " ++ String.intercalate " or " places)
    hint := some "Define the variable or give a default with $\x7bNAME:default\x7d"
    code := some 501 }

variable (dictionary : Dictionary)

/-- What the environment has for a name, if it is asked. -/
def fromEnvironment (name : String) : Option String :=
  if dictionary.substitutesEnvironment then dictionary.environment name else none

/-- What the tree has for a name, if it is asked, where `follow` looks a path up: nothing where no
node is at the path, and the empty text where null is. -/
def fromConfiguration (follow : String → Except Fault (Option String)) (name : String) :
    Except Fault (Option String) :=
  if dictionary.substitutesConfiguration then
    match follow name with
    | .ok text => .ok (some (text.getD ""))
    | .error fault => if fault.isNotFound then .ok none else .error fault
  else .ok none

/-- What a reference is worth, where `follow` looks a path up. -/
def resolve (follow : String → Except Fault (Option String)) (reference : Reference) :
    Except Fault String :=
  let name := Text.trimmed reference.name
  if name = "" then .ok ""
  else match dictionary.fromEnvironment name with
    | some text => .ok text
    | none => do
      match ← dictionary.fromConfiguration follow name with
      | some text => return text
      | none =>
        match reference.default with
        | some default => return Text.trimmed default
        | none => throw (dictionary.unresolved name)

/-- Replaces the references in a text, where `follow` looks a path up. -/
def substituteWith (follow : String → Except Fault (Option String)) (text : String) :
    Except Fault String :=
  Template.expand (dictionary.resolve follow) text

/-- The text at a path with its references replaced, where `follow` looks a path up. -/
def getWith (follow : String → Except Fault (Option String)) (path : String) :
    Except Fault (Option String) := do
  match ← dictionary.rawText path with
  | none => return none
  | some text =>
    if dictionary.substitutesEnvironment || dictionary.substitutesConfiguration then
      return some (← dictionary.substituteWith follow text)
    else return some text

/-- Looks up a path with a number of levels left for references inside referenced texts. -/
def getWithin : Nat → String → Except Fault (Option String)
  | 0 => dictionary.getWith fun name => .error (tooDeep name)
  | levels + 1 => dictionary.getWith (getWithin levels)

/-- The text at a path; nothing for an explicit null. -/
def get (path : String) : Except Fault (Option String) :=
  dictionary.getWithin nestingLimit path

/-- Like `get`, with a text for a path that does not exist. -/
def getOr (path default : String) : Except Fault (Option String) :=
  match dictionary.get path with
  | .ok text => .ok text
  | .error fault => if fault.isNotFound then .ok (some default) else .error fault

end ConfigTree.Dictionary
