import ConfigTree.Json.Document

/-!
# Skipping a JSON value

A value that nobody asks for is skipped without being kept. It has to be well-formed as far as its
tokens go, but its numbers may be of any size, its strings may hold any escapes of the right length,
and lists and objects may lie within each other without limit.
-/

namespace ConfigTree.Json

/-- Skips the rest of a string, behind its opening quote. -/
def skipString (text : List Char) : Except Stop (Rest text) :=
  match text with
  | [] => stopAt .endInString []
  | '"' :: rest => .ok (.tail '"' rest)
  | '\\' :: [] => stopAt .endInString []
  | '\\' :: 'u' :: text => do
    let (_, rest) ← readHex text
    let taken := (rest.behind 'u').behind '\\'
    return taken.andThen (← skipString taken.text)
  | '\\' :: letter :: text =>
    if (simpleEscape? letter).isSome then do
      let taken := (Rest.tail letter text).behind '\\'
      return taken.andThen (← skipString taken.text)
    else stopAt .invalidEscape (letter :: text)
  | c :: text =>
    if isControl c then stopBefore .controlCharacter (c :: text)
    else do
      let taken := Rest.tail c text
      return taken.andThen (← skipString taken.text)
termination_by text.length
decreasing_by all_goals exact taken.shorter

/-- What a value that is being skipped lies in. -/
inductive Frame where
  | list
  | object

/-- The problem of a text that ends within a frame. -/
def Frame.atEnd : Frame → Problem
  | .list => .endInList
  | .object => .endInObject

/-- The problem of a frame that neither goes on nor closes. -/
def Frame.separatorExpected : Frame → Problem
  | .list => .listSeparatorExpected
  | .object => .objectSeparatorExpected

/-- The character that closes a frame. -/
def Frame.closing : Frame → Char
  | .list => ']'
  | .object => '}'

/-- Skips the name of a field and the colon behind it. -/
def skipName (text : List Char) : Except Stop (Rest text) :=
  match skipped : skipSpace text with
  | [] => stopAt .endInObject []
  | '"' :: rest => do
    let behind ← skipString rest
    let after ← readColon behind.text
    return (Rest.ofSkipSpace skipped).andThen (behind.andThen after)
  | other => stopAt .keyExpected other

/-- Skips what leads to the next value in a frame: the name of a field, or nothing. -/
def Frame.skipLead (frame : Frame) (text : List Char) : Except Stop (RestAfter text) :=
  match frame with
  | .list => .ok (.all text)
  | .object => do return (← skipName text).maybe

/-- Skips a value that begins with a character and is no list or object. -/
def skipScalar (first : Char) (text : List Char) : Except Stop (RestAfter text) := do
  if first = '-' then
    let (_, rest) ← readWritten .invalidNumber text
    return rest.maybe
  else if first.isDigit then
    let (_, rest) ← readWritten .invalidNumber (first :: text)
    return rest.withoutFirst
  else if first = '"' then
    return (← skipString text).maybe
  else
    let (_, rest) ← readScalar first text
    return rest

mutual

/-- Skips a value and everything that follows it in the given frames, innermost first. -/
def skipValue (frames : List Frame) (text : List Char) : Except Stop (Rest text) :=
  match skipped : skipSpace text with
  | [] => stopAt .endInValue []
  | first :: rest => do
    let opened : Option Frame :=
      if first = '[' then some .list else if first = '{' then some .object else none
    match opened with
    | none =>
      let taken := (Rest.ofSkipSpace skipped).andMaybe (← skipScalar first rest)
      return taken.andMaybe (← skipBehind frames taken.text)
    | some frame =>
      match inner : skipSpace rest with
      | [] => stopAt frame.atEnd []
      | c :: _ =>
        if c = frame.closing then
          let taken := (Rest.ofSkipSpace skipped).andThen (.ofSkipSpace inner)
          return taken.andMaybe (← skipBehind frames taken.text)
        else
          let taken := (Rest.ofSkipSpace skipped).andMaybe (← frame.skipLead rest)
          return taken.andThen (← skipValue (frame :: frames) taken.text)
termination_by text.length
decreasing_by all_goals exact taken.shorter

/-- Skips what follows a value in the given frames. -/
def skipBehind (frames : List Frame) (text : List Char) : Except Stop (RestAfter text) :=
  match frames with
  | [] => .ok (.all text)
  | frame :: outer =>
    match skipped : skipSpace text with
    | [] => stopAt frame.atEnd []
    | c :: rest => do
      if c = frame.closing then
        let taken := Rest.ofSkipSpace skipped
        return (taken.andMaybe (← skipBehind outer taken.text)).maybe
      else if c = ',' then
        let taken := (Rest.ofSkipSpace skipped).andMaybe (← frame.skipLead rest)
        return (taken.andThen (← skipValue (frame :: outer) taken.text)).maybe
      else stopAt frame.separatorExpected (c :: rest)
termination_by text.length
decreasing_by all_goals exact taken.shorter

end

end ConfigTree.Json
