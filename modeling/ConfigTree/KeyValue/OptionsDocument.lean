import ConfigTree.Json.Skip
import ConfigTree.KeyValue.Options
import ConfigTree.Text.Escaped

/-!
# Options written as JSON

Options are written as an object of named truth values, or as a list of them in the order of the
switches. Switches that are missing are off. Names that are no switches are skipped with their
values; the name of a switch may stand there once only.
-/

namespace ConfigTree.KeyValue

open Json

/-- A switch of a dialect by its written name. -/
structure Switch where
  name : String
  isOn : Options → Bool
  turn : Bool → Options → Options

/-- All switches in their order. -/
def switches : List Switch :=
  [⟨"hash_comments", (·.hashComments), fun on options => { options with hashComments := on }⟩,
    ⟨"semicolon_comments", (·.semicolonComments),
      fun on options => { options with semicolonComments := on }⟩,
    ⟨"bang_comments", (·.bangComments), fun on options => { options with bangComments := on }⟩,
    ⟨"sections", (·.sections), fun on options => { options with sections := on }⟩,
    ⟨"strip_quotes", (·.stripQuotes), fun on options => { options with stripQuotes := on }⟩,
    ⟨"equals_separator", (·.equalsSeparator),
      fun on options => { options with equalsSeparator := on }⟩,
    ⟨"colon_separator", (·.colonSeparator),
      fun on options => { options with colonSeparator := on }⟩,
    ⟨"allow_missing_values", (·.allowMissingValues),
      fun on options => { options with allowMissingValues := on }⟩,
    ⟨"multiline", (·.multiline), fun on options => { options with multiline := on }⟩]

/-- What a number is called where none is expected. -/
def describeNumber : Number → String
  | .float minus magnitude => s!"floating point `{floatText minus magnitude}`"
  | number => s!"integer `{number.text}`"

/-- Stops at a value of another type than expected. A list or an object is named in front of its
bracket, any other value when it has been read. -/
def stopAtValue {α : Type} (expected : String) (text : List Char) : Except Stop α :=
  match text with
  | [] => stopAt .endInValue []
  | first :: rest =>
    let mismatch (found : String) (rest : List Char) : Except Stop α :=
      stopBefore (.invalidType found expected) rest
    match first with
    | 'n' => do mismatch "null" (← readWord ['u', 'l', 'l'] rest).text
    | 't' => do mismatch "boolean `true`" (← readWord ['r', 'u', 'e'] rest).text
    | 'f' => do mismatch "boolean `false`" (← readWord ['a', 'l', 's', 'e'] rest).text
    | '-' => do
      let (number, after) ← readNumber true rest
      mismatch (describeNumber number) after.text
    | '"' => do
      let (content, after) ← readString rest
      mismatch s!"string {Text.showQuoted content}" after.text
    | '[' => mismatch "sequence" (first :: rest)
    | '{' => mismatch "map" (first :: rest)
    | _ =>
      if first.isDigit then do
        let (number, after) ← readNumber false (first :: rest)
        mismatch (describeNumber number) after.text
      else stopAt .valueExpected (first :: rest)

/-- Reads a truth value. -/
def readBoolean (text : List Char) : Except Stop (Bool × Rest text) :=
  match skipped : skipSpace text with
  | 't' :: rest => do
    let after ← readWord ['r', 'u', 'e'] rest
    return (true, (Rest.ofSkipSpace skipped).andMaybe after)
  | 'f' :: rest => do
    let after ← readWord ['a', 'l', 's', 'e'] rest
    return (false, (Rest.ofSkipSpace skipped).andMaybe after)
  | other => stopAtValue "a boolean" other

/-- Reads truth values for switches in order, until the list closes. -/
def readListed (first : Bool) (options : Options) :
    List Switch → List Char → Except Stop (Options × List Char)
  | [], text => .ok (options, text)
  | switch :: more, text =>
    let read (text : List Char) : Except Stop (Options × List Char) := do
      let (on, rest) ← readBoolean text
      readListed false (switch.turn on options) more rest.text
    match skipSpace text with
    | [] => stopAt .endInList []
    | ']' :: rest => .ok (options, ']' :: rest)
    | c :: rest =>
      if first then read (c :: rest)
      else if c = ',' then
        match skipSpace rest with
        | [] => stopAt .endInValue []
        | ']' :: rest => stopAt .trailingComma (']' :: rest)
        | other => read other
      else stopAt .listSeparatorExpected (c :: rest)

/-- Reads the end of a list in which all switches have been read. -/
def readListEnd (text : List Char) : Except Stop (List Char) :=
  match skipSpace text with
  | [] => stopAt .endInList []
  | ']' :: rest => .ok rest
  | ',' :: rest =>
    match skipSpace rest with
    | ']' :: rest => stopAt .trailingComma (']' :: rest)
    | other => stopAt .trailingCharacters other
  | other => stopAt .trailingCharacters other

/-- Stops at a switch that is named again, behind the name and a brace that closes the object. -/
def stopAtDuplicate {α : Type} (name : String) (text : List Char) : Except Stop α :=
  match skipSpace text with
  | '}' :: rest => stopBefore (.duplicateField name) rest
  | other => stopBefore (.duplicateField name) other

/-- Reads the field behind an opening quote: a switch that has not been named yet, or a name that is
skipped with its value. -/
def readSwitch (named : List String) (options : Options) (text : List Char) :
    Except Stop ((List String × Options) × Rest text) := do
  let (content, behindName) ← readString text
  let name := String.ofList content
  match switches.find? fun switch => switch.name == name with
  | some switch =>
    if named.contains name then stopAtDuplicate name behindName.text
    else
      let value := behindName.andThen (← readColon behindName.text)
      let (on, rest) ← readBoolean value.text
      return ((name :: named, switch.turn on options), value.andThen rest)
  | none =>
    let value := behindName.andThen (← readColon behindName.text)
    let rest ← skipValue [] value.text
    return ((named, options), value.andThen rest)

/-- Reads the fields of an object up to its closing brace. -/
def readNamed (first : Bool) (named : List String) (options : Options) (text : List Char) :
    Except Stop (Options × List Char) :=
  match skipped : skipSpace text with
  | [] => stopAt .endInObject []
  | '}' :: rest => .ok (options, rest)
  | c :: rest =>
    if first then
      if c = '"' then do
        let ((named, options), after) ← readSwitch named options rest
        let taken := (Rest.ofSkipSpace skipped).andThen after
        readNamed false named options taken.text
      else stopAt .keyExpected (c :: rest)
    else if c = ',' then
      match inner : skipSpace rest with
      | [] => stopAt .endInValue []
      | '}' :: rest => stopAt .trailingComma ('}' :: rest)
      | '"' :: behind => do
        let ((named, options), after) ← readSwitch named options behind
        let quote : Rest rest := .ofSkipSpace inner
        let taken := (Rest.ofSkipSpace skipped).andThen (quote.andThen after)
        readNamed false named options taken.text
      | other => stopAt .keyExpected other
    else stopAt .objectSeparatorExpected (c :: rest)
termination_by text.length
decreasing_by all_goals exact taken.shorter

/-- Reads options from a whole document. -/
def readOptions (text : List Char) : Except Stop Options := do
  let (options, rest) ←
    match skipSpace text with
    | '[' :: rest => do
      let (options, behind) ← readListed true {} switches rest
      pure (options, ← readListEnd behind)
    | '{' :: rest => readNamed true [] {} rest
    | other => stopAtValue "struct KvOptions" other
  readEnd rest
  return options

/-- The options that a JSON text gives, or the text of what is wrong with it. -/
def Options.ofDocument (text : String) : Except String Options :=
  (readOptions text.toList).mapError (·.message text.toList)

end ConfigTree.KeyValue
