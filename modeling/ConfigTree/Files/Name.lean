import ConfigTree.Fault

/-!
# File names

A file name is cut at its slashes into components. Empty components and single dots lead nowhere.
A name whose first component is a tilde means a place in the home directory.
-/

namespace ConfigTree.FileName

/-- The components of a name, the empty ones and all dots included. -/
def components (name : List Char) : List (List Char) :=
  name.splitOn '/'

/-- Whether a component stays where it is. -/
def isIdle (component : List Char) : Bool :=
  component = [] || component = ['.']

/-- Puts components together with slashes. -/
def join (components : List (List Char)) : List Char :=
  (components.intersperse ['/']).flatten

/-- Removes idle components at both ends. -/
def trimIdle (components : List (List Char)) : List (List Char) :=
  ((components.dropWhile isIdle).reverse.dropWhile isIdle).reverse

/-- A name seen from a directory. -/
def within (directory : String) (name : List Char) : String :=
  let slash := if directory = "" || directory.toList.getLast? = some '/' then "" else "/"
  directory ++ slash ++ .ofList name

/-- The name with a tilde in front replaced by the home directory, if there is one. -/
def expandHome (home : Option String) (name : String) : Except Fault String :=
  match components name.toList with
  | ['~'] :: rest =>
    match home with
    | some home => .ok (within home (join (trimIdle rest)))
    | none => .error (.onFile "Could not determine home directory for ~ expansion" name)
  | _ => .ok name

/-- What stands behind the last dot of a component, if something stands in front of it. -/
def extensionOf (component : List Char) : Option (List Char) :=
  let extension := (component.reverse.takeWhile (· ≠ '.')).reverse
  if extension.length + 1 < component.length then some extension else none

/-- The extension of a name in lower-case ASCII letters. Idle components at the end do not count,
and a name that ends by going up has no extension. -/
def extension? (name : String) : Option String :=
  match ((components name.toList).filter fun component => !isIdle component).getLast? with
  | some component =>
    if component = ['.', '.'] then none
    else (extensionOf component).map fun extension => .ofList (extension.map Char.toLower)
  | none => none

end ConfigTree.FileName
