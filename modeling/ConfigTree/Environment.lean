/-!
# Environments

An environment gives names a text. A name without a text is different from a name whose text is
empty.
-/

namespace ConfigTree

/-- A read-only source of named texts. -/
abbrev Environment := String → Option String

namespace Environment

/-- The environment without names. -/
def empty : Environment := fun _ => none

/-- The environment of a table of names and texts; the first entry of a name counts. -/
def ofTable (table : List (String × String)) : Environment :=
  fun name => table.lookup name

/-- The text behind `name=` in an entry of an environment block. -/
def valueIn (name : List Char) (entry : List Char) : Option (List Char) :=
  match name, entry with
  | [], '=' :: value => some value
  | c :: name, d :: entry => if c = d then valueIn name entry else none
  | _, _ => none

/-- The environment of a block of entries `name=text`, as a process carries it. The first entry
that begins with the name and an equals sign counts, and no entry has the empty name. -/
def ofBlock (entries : List String) : Environment := fun name =>
  if name = "" then none
  else (entries.findSome? fun entry => valueIn name.toList entry.toList).map .ofList

end Environment

end ConfigTree
