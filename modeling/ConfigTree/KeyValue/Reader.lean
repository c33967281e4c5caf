import ConfigTree.KeyValue.Line

/-!
# Reading key-value text

A reader takes lines one by one and hands out entries. It remembers the scope that headers have set
and a value that goes on in the next line. An entry carries the number and content of the line on
which it begins, for faults that show up later.
-/

namespace ConfigTree.KeyValue

/-- A key with its value, and the line on which it begins. -/
structure Entry where
  key : String
  value : String
  line : Nat
  content : String
  deriving DecidableEq

/-- A value that goes on in the next line. -/
structure Continuation where
  key : List Char
  /-- The value so far. -/
  value : List Char
  line : Nat
  content : List Char

/-- What is remembered between lines. -/
structure Reader where
  /-- What goes in front of keys. -/
  scope : List Char := []
  /-- A value that is not complete. -/
  pending : Option Continuation := none
  /-- The number of lines read. -/
  line : Nat := 0

/-- The entry of a complete value: the value without blanks at its ends and, if the options say so,
without a pair of quotes around it. -/
def Continuation.entry (options : Options) (continuation : Continuation) : Entry :=
  let value := Text.trim continuation.value
  { key := .ofList continuation.key
    value := .ofList (if options.stripQuotes then Text.unquote value else value)
    line := continuation.line
    content := .ofList continuation.content }

namespace Reader

/-- Takes a line behind an incomplete value. Headers and separators mean nothing here. -/
def feedPending (options : Options) (reader : Reader) (continuation : Continuation)
    (text : List Char) : Reader × Option Entry :=
  let piece := Text.trimEnd text
  if piece.getLast? = some '\\' then
    let value := continuation.value ++ piece.dropLast
    ({ reader with pending := some { continuation with value := value } }, none)
  else
    let value := continuation.value ++ text
    ({ reader with pending := none },
      some ({ continuation with value := value }.entry options))

/-- Takes an entry without blanks at its ends. -/
def feedEntry (options : Options) (reader : Reader) (line text : List Char) :
    Except Fault (Reader × Option Entry) := do
  let (key, value) ←
    (splitEntry options text).mapError (·.fault reader.line (.ofList line))
  let entry : Continuation :=
    { key := qualify reader.scope key, value := value, line := reader.line, content := line }
  if options.multiline && value.getLast? = some '\\' then
    return ({ reader with pending := some { entry with value := value.dropLast } }, none)
  else return (reader, some (entry.entry options))

/-- Takes the next line and hands out the entry that it completes. -/
def feed (options : Options) (reader : Reader) (line : List Char) :
    Except Fault (Reader × Option Entry) :=
  let reader := { reader with line := reader.line + 1 }
  let text := stripComment options.commentMarks line
  match reader.pending with
  | some continuation => .ok (reader.feedPending options continuation text)
  | none =>
    match if options.sections then header? text else none with
    | some name => .ok ({ reader with scope := enterScope reader.scope name }, none)
    | none =>
      let text := Text.trim text
      if text = [] then .ok (reader, none) else reader.feedEntry options line text

/-- The entry that the end of the text completes. -/
def finish (options : Options) (reader : Reader) : Option Entry :=
  reader.pending.map (·.entry options)

end Reader

end ConfigTree.KeyValue
