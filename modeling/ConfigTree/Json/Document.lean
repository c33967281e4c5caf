import ConfigTree.Json.Number
import ConfigTree.Dictionary.Basic

/-!
# JSON documents

A JSON text is read as a configuration tree: numbers and truth values become texts, null becomes an
explicit null, and lists and objects keep their order. Of repeated names in an object the later
value counts, at the earlier place. At most 127 lists and objects may lie within each other.
-/

namespace ConfigTree.Json

/-- A step that reads a node. -/
abbrev NodeReader := (text : List Char) → Except Stop (Node × Rest text)

/-- Reads the elements of a list, behind its bracket or a comma. -/
def readElements (read : NodeReader) (text : List Char) :
    Except Stop (List Node × Rest text) := do
  let (item, rest) ← read text
  match skipped : skipSpace rest.text with
  | [] => stopAt .endInList []
  | ']' :: _ => return ([item], rest.andThen (.ofSkipSpace skipped))
  | ',' :: behind =>
    match skipSpace behind with
    | [] => stopAt .endInValue []
    | ']' :: after => stopAt .trailingComma (']' :: after)
    | _ =>
      let next := rest.andThen (.ofSkipSpace skipped)
      let (items, after) ← readElements read next.text
      return (item :: items, next.andThen after)
  | other => stopAt .listSeparatorExpected other
termination_by text.length
decreasing_by exact next.shorter

/-- Reads a list behind its opening bracket. -/
def readList (read : NodeReader) (text : List Char) : Except Stop (Node × Rest text) :=
  match skipped : skipSpace text with
  | [] => stopAt .endInList []
  | ']' :: _ => .ok (.array [], .ofSkipSpace skipped)
  | _ => do
    let (items, rest) ← readElements read text
    return (.array items, rest)

/-- Reads the colon in front of a value. -/
def readColon (text : List Char) : Except Stop (Rest text) :=
  match skipped : skipSpace text with
  | [] => stopAt .endInObject []
  | ':' :: _ => .ok (.ofSkipSpace skipped)
  | other => stopAt .colonExpected other

/-- Reads the name of a field and the colon behind it, behind the blanks in front. -/
def readName (text : List Char) : Except Stop (String × Rest text) :=
  match text with
  | '"' :: text => do
    let (name, rest) ← readString text
    let after ← readColon rest.text
    return (.ofList name, (rest.andThen after).behind '"')
  | other => stopAt .keyExpected other

/-- Reads the fields of an object, behind its brace or a comma. -/
def readFields (read : NodeReader) (text : List Char) :
    Except Stop (List (String × Node) × Rest text) := do
  let (name, behindName) ← readName (skipSpace text)
  let (node, behindNode) ← read behindName.text
  let rest := behindName.behindSpace.andThen behindNode
  match skipped : skipSpace rest.text with
  | [] => stopAt .endInObject []
  | '}' :: _ => return ([(name, node)], rest.andThen (.ofSkipSpace skipped))
  | ',' :: behind =>
    match skipSpace behind with
    | [] => stopAt .endInValue []
    | '}' :: after => stopAt .trailingComma ('}' :: after)
    | _ =>
      let next := rest.andThen (.ofSkipSpace skipped)
      let (fields, after) ← readFields read next.text
      return ((name, node) :: fields, next.andThen after)
  | other => stopAt .objectSeparatorExpected other
termination_by text.length
decreasing_by exact next.shorter

/-- Reads an object behind its opening brace. -/
def readObject (read : NodeReader) (text : List Char) : Except Stop (Node × Rest text) :=
  match skipped : skipSpace text with
  | [] => stopAt .endInObject []
  | '}' :: _ => .ok (.object [], .ofSkipSpace skipped)
  | _ => do
    let (fields, rest) ← readFields read text
    return (.object fields, rest)

/-- Reads a value that begins with a character and is no list or object. -/
def readScalar (first : Char) (text : List Char) : Except Stop (Node × RestAfter text) := do
  match first with
  | 'n' => return (.null, ← readWord ['u', 'l', 'l'] text)
  | 't' => return (.ofText "true", ← readWord ['r', 'u', 'e'] text)
  | 'f' => return (.ofText "false", ← readWord ['a', 'l', 's', 'e'] text)
  | '-' =>
    let (number, rest) ← readNumber true text
    return (.ofText number.text, rest.maybe)
  | '"' =>
    let (content, rest) ← readString text
    return (.ofText (.ofList content), rest.maybe)
  | other => stopAt .valueExpected (other :: text)

/-- Reads a value behind the blanks in front, where `nested` reads the values within it; there is
no such reader where nothing may be nested any more. -/
def readToken (nested : Option NodeReader) (text : List Char) : Except Stop (Node × Rest text) :=
  match text with
  | [] => stopAt .endInValue []
  | '[' :: text =>
    match nested with
    | none => stopAt .tooDeep ('[' :: text)
    | some read => do
      let (node, rest) ← readList read text
      return (node, rest.behind '[')
  | '{' :: text =>
    match nested with
    | none => stopAt .tooDeep ('{' :: text)
    | some read => do
      let (node, rest) ← readObject read text
      return (node, rest.behind '{')
  | first :: text =>
    if first.isDigit then do
      let (number, rest) ← readNumber false (first :: text)
      return (.ofText number.text, rest)
    else do
      let (node, rest) ← readScalar first text
      return (node, rest.behind first)

/-- Reads a value, in which values may be nested up to a depth. -/
def readValue : (depth : Nat) → NodeReader
  | depth, text => do
    let nested : Option NodeReader :=
      match depth with
      | 0 => none
      | depth + 1 => some (readValue depth)
    let (node, rest) ← readToken nested (skipSpace text)
    return (node, rest.behindSpace)

/-- How many lists and objects may lie within each other. -/
def depthLimit : Nat := 127

/-- Nothing but blanks may stand behind a document. -/
def readEnd (text : List Char) : Except Stop Unit :=
  match skipSpace text with
  | [] => .ok ()
  | other => stopAt .trailingCharacters other

/-- Reads a whole document, with repeated names as they are written. -/
def readDocument (text : List Char) : Except Stop Node := do
  let (node, rest) ← readValue depthLimit text
  readEnd rest.text
  return node

/-- The fault of a text that is no document. -/
def Stop.fault (text : List Char) (stop : Stop) : Fault :=
  let position := stop.position text
  { kind := .json (stop.message text) position.line position.column
    hint := some "Check the JSON syntax"
    code := some 601 }

/-- The tree of a JSON text. -/
def parse (text : String) : Except Fault Node :=
  match readDocument text.toList with
  | .ok node => .ok node.merged
  | .error stop => .error (stop.fault text.toList)

/-- The dictionary of a JSON text. -/
def load (text : String) : Except Fault Dictionary := do
  return .ofNode (← parse text)

end ConfigTree.Json
