import ConfigTree.KeyValue.Options
import ConfigTree.Path.Piece

/-!
# Lines of key-value text

What one line says: a comment runs from the first comment mark to the end, a header is a name in
brackets and nothing else, and any other line that is not blank is an entry. An entry is cut at its
separator, which may stand there only once; `=` goes before `:` where both are possible.
-/

namespace ConfigTree.KeyValue

/-- What is wrong with an entry. -/
inductive LineFault where
  /-- There is no separator. -/
  | missingValue
  /-- The separator stands there more than once. -/
  | tooManySeparators (separator : Char)
  /-- The key leads nowhere: it is empty or has only dots. -/
  | missingKey
  /-- The entry cannot be written into the tree. -/
  | rejected (reason : String)

namespace LineFault

/-- What the text of the fault says. -/
def message : LineFault → String
  | .missingValue => "Missing value for key"
  | .tooManySeparators separator => s!"Too many '{separator}' separators on one line"
  | .missingKey => "Missing key before separator"
  | .rejected reason => reason

/-- The number of the fault. -/
def code : LineFault → Nat
  | .missingValue => 202
  | .tooManySeparators _ => 203
  | .missingKey => 204
  | .rejected _ => 205

/-- The fault of a line with this number and content. -/
def fault (number : Nat) (content : String) (lineFault : LineFault) : Fault where
  kind := .line number content lineFault.message
  code := some lineFault.code

end LineFault

/-- The line up to its first comment mark. -/
def stripComment (marks line : List Char) : List Char :=
  line.takeWhile fun c => !marks.contains c

/-- The name in a header, read from left to right: blanks, a bracket, all up to the first closing
bracket, and nothing but blanks behind it. -/
def header? (line : List Char) : Option (List Char) :=
  match Text.trimStart line with
  | '[' :: rest =>
    match rest.dropWhile (· ≠ ']') with
    | ']' :: behind =>
      if behind.all Text.isBlank then some (Text.trim (rest.takeWhile (· ≠ ']'))) else none
    | _ => none
  | _ => none

/-- The scope behind a header: a name that begins with a dot goes below the current scope, any
other name takes its place. -/
def enterScope (scope name : List Char) : List Char :=
  match name with
  | '.' :: rest => if scope = [] then rest else scope ++ '.' :: rest
  | _ => name

/-- A key under a scope. -/
def qualify (scope key : List Char) : List Char :=
  if scope = [] then key else scope ++ '.' :: key

/-- The character at which an entry is cut. -/
def separator? (options : Options) (entry : List Char) : Option Char :=
  if options.equalsSeparator && entry.contains '=' then some '='
  else if options.colonSeparator && entry.contains ':' then some ':'
  else none

/-- The key and the value of an entry without blanks at its ends. -/
def splitEntry (options : Options) (entry : List Char) :
    Except LineFault (List Char × List Char) :=
  match separator? options entry with
  | none => if options.allowMissingValues then .ok (entry, []) else .error .missingValue
  | some separator =>
    match entry.splitOn separator with
    | [key, value] =>
      if Path.pieces (Text.trim key) = [] then .error .missingKey
      else .ok (Text.trim key, Text.trim value)
    | _ => .error (.tooManySeparators separator)

end ConfigTree.KeyValue
