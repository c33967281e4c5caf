import ConfigTree.KeyValue.Load
import ConfigTree.Proofs.Fault.Family

/-!
# Reading apart from writing

Loading a text interleaves reading lines with writing entries. The reader never
looks at the dictionary, so what it hands out can be collected first: a reading
holds the entries in order, each with the scope in force, and the fault that
ends them early. Loading is then the writes of these entries, one after the
other, up to the first refusal.

`Reader.Step` lists the six things that one line can do to a reader. Invariants
of the reader are proved from its cases.
-/

namespace ConfigTree.KeyValue

/-- An entry and the scope in force where it begins. -/
structure Placed where
  scope : List Char
  entry : Entry

/-- What lines come to: the entries handed out in order, and the fault that ends them early. -/
structure Reading where
  handed : List Placed
  fault : Option Fault

namespace Reader

/-- Reads the remaining lines without writing anything. -/
def read (options : Options) (reader : Reader) : List (List Char) → Reading
  | [] => ⟨(reader.finish options).toList.map (Placed.mk reader.scope), none⟩
  | line :: rest =>
    match reader.feed options line with
    | .error fault => ⟨[], some fault⟩
    | .ok (after, entry) =>
      let reading := after.read options rest
      ⟨entry.toList.map (Placed.mk after.scope) ++ reading.handed, reading.fault⟩

end Reader

/-- The reading of a whole text. -/
def Reading.ofText (options : Options) (text : String) : Reading :=
  Reader.read options {} (Text.lines text.toList)

/-- The fault of an entry that cannot be set. -/
def Entry.refused (entry : Entry) (refusal : Fault) : Fault where
  kind := .line entry.line entry.content refusal.display
  code := some 205

theorem writeTo_of_set_eq_ok {entry : Entry} {dictionary after : Dictionary}
    (written : dictionary.set entry.key entry.value = .ok after) :
    entry.writeTo dictionary = .ok after := by
  simp [Entry.writeTo, written]

theorem writeTo_of_set_eq_error {entry : Entry} {dictionary : Dictionary} {refusal : Fault}
    (failed : dictionary.set entry.key entry.value = .error refusal) :
    entry.writeTo dictionary = .error (entry.refused refusal) := by
  simp [Entry.writeTo, failed, Entry.refused, LineFault.fault, LineFault.message, LineFault.code]

/-- Writes entries in order up to the first refusal. Behind the last entry stands the fault that
ended the reading. -/
def writeAll (ending : Option Fault) (written : Nat) (dictionary : Dictionary) :
    List Entry → Except Fault Nat × Dictionary
  | [] =>
    match ending with
    | none => (.ok written, dictionary)
    | some fault => (.error fault, dictionary)
  | entry :: rest =>
    match entry.writeTo dictionary with
    | .error fault => (.error fault, dictionary)
    | .ok after => writeAll ending (written + 1) after rest

/-- Writes the entries of a reading. -/
def Reading.writeOnto (reading : Reading) (written : Nat) (dictionary : Dictionary) :
    Except Fault Nat × Dictionary :=
  writeAll reading.fault written dictionary (reading.handed.map Placed.entry)

theorem loadLines_eq_writeOnto (options : Options) (reader : Reader) (written : Nat)
    (dictionary : Dictionary) (lines : List (List Char)) :
    loadLines options reader written dictionary lines =
      (reader.read options lines).writeOnto written dictionary := by
  induction lines generalizing reader written dictionary with
  | nil =>
      simp only [loadLines, Reader.read, Reading.writeOnto]
      cases reader.finish options with
      | none => simp [writeAll]
      | some entry => cases wrote : entry.writeTo dictionary <;> simp [writeAll, wrote]
  | cons line rest ih =>
      simp only [loadLines, Reader.read]
      cases fed : reader.feed options line with
      | error fault => simp [Reading.writeOnto, writeAll]
      | ok next =>
          rcases next with ⟨after, entry⟩
          cases entry with
          | none => simp [ih, Reading.writeOnto]
          | some entry =>
              simp only [Reading.writeOnto, Option.toList_some, List.map_cons, List.map_nil,
                List.cons_append, List.nil_append, writeAll]
              cases entry.writeTo dictionary with
              | error fault => rfl
              | ok afterWrite => exact ih after (written + 1) afterWrite

/-- Loading a text under accepted options writes the entries of its reading. -/
theorem loadInto_eq_writeOnto {options : Options} (accepted : options.validate = .ok ())
    (text : String) (dictionary : Dictionary) :
    loadInto options text dictionary = (Reading.ofText options text).writeOnto 0 dictionary := by
  simp only [loadInto, accepted, Reading.ofText, loadLines_eq_writeOnto]

/-- A dictionary loaded from a text is what loading the text onto an empty object leaves. -/
theorem loadInto_of_load_eq_ok {options : Options} {text : String} {dictionary : Dictionary}
    (loaded : load options text = .ok dictionary) :
    ∃ total, loadInto options text .emptyObject = (.ok total, dictionary) := by
  unfold load at loaded
  split at loaded
  · next total final ran =>
    cases loaded
    exact ⟨total, ran⟩
  · cases loaded

/-- A dictionary loaded from a text comes from writing all entries into an empty object. -/
theorem writeOnto_of_load_eq_ok {options : Options} (accepted : options.validate = .ok ())
    {text : String} {dictionary : Dictionary} (loaded : load options text = .ok dictionary) :
    ∃ total, (Reading.ofText options text).writeOnto 0 .emptyObject = (.ok total, dictionary) := by
  rw [← loadInto_eq_writeOnto accepted]
  exact loadInto_of_load_eq_ok loaded

namespace Reader

/-- What one line does to a reader, and the entry that it completes. -/
inductive Step (options : Options) (reader : Reader) (line : List Char) :
    Reader → Option Entry → Prop where
  | goesOn (continuation : Continuation) (waiting : reader.pending = some continuation)
      (open_ : (Text.trimEnd (stripComment options.commentMarks line)).getLast? = some '\\') :
      Step options reader line
        { reader with
          line := reader.line + 1
          pending := some { continuation with
            value := continuation.value ++
              (Text.trimEnd (stripComment options.commentMarks line)).dropLast } } none
  | ends (continuation : Continuation) (waiting : reader.pending = some continuation)
      (closed : (Text.trimEnd (stripComment options.commentMarks line)).getLast? ≠ some '\\') :
      Step options reader line { reader with line := reader.line + 1, pending := none }
        (some (Continuation.entry options { continuation with
          value := continuation.value ++ stripComment options.commentMarks line }))
  | header (name : List Char) (idle : reader.pending = none) (on : options.sections = true)
      (isHeader : header? (stripComment options.commentMarks line) = some name) :
      Step options reader line
        { scope := enterScope reader.scope name, pending := none, line := reader.line + 1 } none
  | blank (idle : reader.pending = none)
      (noHeader : options.sections = true →
        header? (stripComment options.commentMarks line) = none)
      (empty : Text.trim (stripComment options.commentMarks line) = []) :
      Step options reader line { reader with line := reader.line + 1, pending := none } none
  | begins (key value : List Char) (idle : reader.pending = none)
      (noHeader : options.sections = true →
        header? (stripComment options.commentMarks line) = none)
      (filled : Text.trim (stripComment options.commentMarks line) ≠ [])
      (split : splitEntry options (Text.trim (stripComment options.commentMarks line)) =
        .ok (key, value))
      (multiline : options.multiline = true) (open_ : value.getLast? = some '\\') :
      Step options reader line
        { reader with
          line := reader.line + 1
          pending := some ⟨qualify reader.scope key, value.dropLast, reader.line + 1, line⟩ } none
  | whole (key value : List Char) (idle : reader.pending = none)
      (noHeader : options.sections = true →
        header? (stripComment options.commentMarks line) = none)
      (filled : Text.trim (stripComment options.commentMarks line) ≠ [])
      (split : splitEntry options (Text.trim (stripComment options.commentMarks line)) =
        .ok (key, value))
      (closed : options.multiline = true → value.getLast? ≠ some '\\') :
      Step options reader line { reader with line := reader.line + 1, pending := none }
        (some (Continuation.entry options
          ⟨qualify reader.scope key, value, reader.line + 1, line⟩))

/-- A line that is read without a fault does one of the six things. -/
theorem step_of_feed {options : Options} {reader after : Reader} {line : List Char}
    {entry : Option Entry} (fed : reader.feed options line = .ok (after, entry)) :
    Step options reader line after entry := by
  unfold feed at fed
  simp only at fed
  cases waiting : reader.pending with
  | some continuation =>
      simp only [waiting, feedPending] at fed
      split at fed
      · next open_ =>
        cases fed
        exact .goesOn continuation waiting open_
      · next closed =>
        cases fed
        exact .ends continuation waiting closed
  | none =>
      simp only [waiting] at fed
      cases name : if options.sections = true then
          header? (stripComment options.commentMarks line) else none with
      | some found =>
          simp only [name] at fed
          cases fed
          by_cases on : options.sections = true
          · exact .header found waiting on (by simpa [on] using name)
          · simp [on] at name
      | none =>
          have noHeader : options.sections = true →
              header? (stripComment options.commentMarks line) = none := by
            intro on
            simpa [on] using name
          simp only [name] at fed
          split at fed
          · next empty =>
            cases fed
            exact .blank waiting noHeader empty
          · next filled =>
            unfold feedEntry at fed
            cases split : splitEntry options
                (Text.trim (stripComment options.commentMarks line)) with
            | error lineFault => simp [split, bind, Except.bind] at fed
            | ok parts =>
                rcases parts with ⟨key, value⟩
                simp only [split, mapError_ok, bind, Except.bind, pure, Except.pure] at fed
                split at fed
                · next more =>
                  cases fed
                  simp only [Bool.and_eq_true, decide_eq_true_eq] at more
                  exact .begins key value waiting noHeader filled split more.1 more.2
                · next closed =>
                  cases fed
                  simp only [Bool.and_eq_true, decide_eq_true_eq, not_and] at closed
                  exact .whole key value waiting noHeader filled split closed

theorem name_eq_none {options : Options} {text : List Char}
    (noHeader : options.sections = true → header? text = none) :
    (if options.sections = true then header? text else none) = none := by
  simpa using noHeader

/-- A line that does one of the six things is read without a fault. -/
theorem Step.feed_eq {options : Options} {reader after : Reader} {line : List Char}
    {entry : Option Entry} (step : Step options reader line after entry) :
    reader.feed options line = .ok (after, entry) := by
  cases step with
  | goesOn continuation waiting open_ => simp [feed, waiting, feedPending, open_]
  | ends continuation waiting closed => simp [feed, waiting, feedPending, closed]
  | header name idle on isHeader => simp [feed, idle, on, isHeader]
  | blank idle noHeader empty =>
      simp [feed, idle, name_eq_none noHeader, empty]
  | begins key value idle noHeader filled split multiline open_ =>
      simp [feed, idle, name_eq_none noHeader, filled, feedEntry, split, multiline, open_, bind,
        Except.bind, pure, Except.pure]
  | whole key value idle noHeader filled split closed =>
      have ended : (options.multiline && value.getLast? = some '\\') = false := by
        simpa using closed
      simp [feed, idle, name_eq_none noHeader, filled, feedEntry, split, ended, bind,
        Except.bind, pure, Except.pure]

/-- An entry that cannot be split is a fault of its line. -/
theorem feed_of_splitEntry_eq_error {options : Options} {reader : Reader} {line : List Char}
    {lineFault : LineFault} (idle : reader.pending = none)
    (noHeader : options.sections = true →
      header? (stripComment options.commentMarks line) = none)
    (filled : Text.trim (stripComment options.commentMarks line) ≠ [])
    (failed : splitEntry options (Text.trim (stripComment options.commentMarks line)) =
      .error lineFault) :
    reader.feed options line = .error (lineFault.fault (reader.line + 1) (.ofList line)) := by
  simp [feed, idle, name_eq_none noHeader, filled, feedEntry, failed, bind, Except.bind]

end Reader

end ConfigTree.KeyValue
