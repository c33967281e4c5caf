import ConfigTree.Proofs.KeyValue.Joined
import ConfigTree.Proofs.KeyValue.Line

/-!
# What stands behind a line

Blanks and a comment at the end of a line change nothing, whatever the line is: a
header, an entry, or the first, a middle or the last line of a value. The reader takes
them off in different ways, but it never looks at more of a line than its tidied text,
except to quote the line in a fault. Two texts with the same tidied lines are therefore
loaded alike, up to what their faults quote.

A line that is nothing but blanks and a comment only counts as a line, unless it stands
in the middle of a value.
-/

namespace ConfigTree

/-- The fault without the line that it quotes. -/
def Fault.unquoted (fault : Fault) : Fault :=
  match fault.kind with
  | .line number _ message => { fault with kind := .line number "" message }
  | .pathSyntax .. | .notFound .. | .outOfBounds .. | .typeMismatch .. | .unsupported ..
  | .conversion .. | .substitution .. | .invalidOptions .. | .json .. | .file .. => fault

/-- The fault as it is reported where one more line stands behind a number of lines. -/
def Fault.pushed (above : Nat) (fault : Fault) : Fault :=
  match fault.kind with
  | .line number _ _ => if above < number then fault.lower 1 else fault
  | .pathSyntax .. | .notFound .. | .outOfBounds .. | .typeMismatch .. | .unsupported ..
  | .conversion .. | .substitution .. | .invalidOptions .. | .json .. | .file .. => fault

/-- The fault of a line that has a number behind `low` and up to `high`. -/
def Fault.Within (low high : Nat) (fault : Fault) : Prop :=
  ∃ number content message, fault.kind = .line number content message ∧
    low < number ∧ number ≤ high

theorem Fault.Within.pushed_eq_self {low high above : Nat} {fault : Fault}
    (within : fault.Within low high) (upper : high ≤ above) : fault.pushed above = fault := by
  rcases within with ⟨number, content, message, isLine, _, reached⟩
  have kept : ¬above < number := by omega
  simp only [pushed, isLine, kept, if_false]

theorem Fault.Within.pushed_eq_lower {low high above : Nat} {fault : Fault}
    (within : fault.Within low high) (lower : above ≤ low) :
    fault.pushed above = fault.lower 1 := by
  rcases within with ⟨number, content, message, isLine, behind, _⟩
  have moved : above < number := by omega
  simp only [pushed, isLine, moved, if_true]

namespace KeyValue

/-- Nothing but blanks and, behind them, a comment. -/
inductive Options.Trailer (options : Options) : List Char → Prop where
  | blanks {blanks : List Char} (allBlank : ∀ c ∈ blanks, Text.isBlank c = true)
      (noFeed : '\n' ∉ blanks) : options.Trailer blanks
  | comment {blanks text : List Char} {mark : Char}
      (allBlank : ∀ c ∈ blanks, Text.isBlank c = true) (isMark : mark ∈ options.commentMarks)
      (noFeed : '\n' ∉ blanks ++ mark :: text) : options.Trailer (blanks ++ mark :: text)

/-- `options.Relaid text text'` means that `text'` is `text` with trailers behind any of its lines,
and with other ends of lines. -/
inductive Options.Relaid (options : Options) : List Char → List Char → Prop where
  | done : options.Relaid [] []
  | last {line tail : List Char} (noFeed : '\n' ∉ line) (filled : line ≠ [])
      (trailer : options.Trailer tail) : options.Relaid line (line ++ tail)
  | line {line tail ending ending' below below' : List Char} (noFeed : '\n' ∉ line)
      (trailer : options.Trailer tail) (isEnd : ending ∈ Text.lineEnds)
      (isEnd' : ending' ∈ Text.lineEnds) (rest : options.Relaid below below') :
      options.Relaid (line ++ ending ++ below) (line ++ tail ++ ending' ++ below')

/-- What a line says, without the blanks behind it. -/
def Options.tidied (options : Options) (line : List Char) : List Char :=
  Text.trimEnd (options.uncommented line)

variable {options : Options} {line line' tail : List Char}

namespace Options

theorem Trailer.noFeed_append (trailer : options.Trailer tail) (noFeed : '\n' ∉ line) :
    '\n' ∉ line ++ tail := by
  rw [List.mem_append, not_or]
  refine ⟨noFeed, ?_⟩
  cases trailer with
  | blanks allBlank noFeedBehind => exact noFeedBehind
  | comment allBlank isMark noFeedBehind => exact noFeedBehind

theorem Trailer.blank_uncommented (trailer : options.Trailer tail) :
    ∀ c ∈ options.uncommented tail, Text.isBlank c = true := by
  cases trailer with
  | blanks allBlank noFeed =>
      intro c mem
      exact allBlank c ((List.takeWhile_prefix _).subset mem)
  | @comment blanks text mark allBlank isMark noFeed =>
      intro c mem
      rw [uncommented, stripComment, List.takeWhile_append] at mem
      split at mem
      · rw [List.takeWhile_cons_of_neg (by simp [isMark]), List.append_nil] at mem
        exact allBlank c mem
      · exact allBlank c ((List.takeWhile_prefix _).subset mem)

/-- A trailer does not count for what a line says. -/
theorem tidied_append_trailer (trailer : options.Trailer tail) (line : List Char) :
    options.tidied (line ++ tail) = options.tidied line := by
  rw [tidied, uncommented, stripComment, List.takeWhile_append]
  split
  · next whole =>
    have said : options.uncommented line = line := (List.takeWhile_prefix _).eq_of_length whole
    rw [tidied, said]
    exact Text.trimEnd_append_blanks line trailer.blank_uncommented
  · rfl

theorem header?_congr_tidied (same : options.tidied line' = options.tidied line) :
    header? (options.uncommented line') = header? (options.uncommented line) := by
  rw [← header?_trimEnd (options.uncommented line'), ← header?_trimEnd (options.uncommented line)]
  exact congrArg header? same

theorem trim_append_congr_tidied (same : options.tidied line' = options.tidied line)
    (value : List Char) :
    Text.trim (value ++ options.uncommented line') =
      Text.trim (value ++ options.uncommented line) := by
  rw [← Text.trim_append_trimEnd value (options.uncommented line'),
    ← Text.trim_append_trimEnd value (options.uncommented line)]
  exact congrArg (fun said => Text.trim (value ++ said)) same

/-- What a line says does not depend on its end, also where that takes carriage returns away. -/
theorem tidied_lines_append {ending : List Char} (noFeed : '\n' ∉ line)
    (isEnd : ending ∈ Text.lineEnds) :
    (Text.lines (line ++ ending)).map options.tidied = [options.tidied line] := by
  rcases Text.exists_lines_append noFeed isEnd with ⟨kept, returns, lines, rfl, areReturns⟩
  have trailer : options.Trailer returns := by
    refine .blanks ?_ fun mem => noFeed (List.mem_append_right _ mem)
    intro c mem
    rw [areReturns c mem]
    rfl
  rw [lines, tidied_append_trailer trailer]
  rfl

/-- A text that is laid out anew says the same, line by line. -/
theorem Relaid.tidied_lines {text text' : List Char} (relaid : options.Relaid text text') :
    (Text.lines text').map options.tidied = (Text.lines text).map options.tidied := by
  induction relaid with
  | done => rfl
  | @last line tail noFeed filled trailer =>
      have noFeed' := trailer.noFeed_append noFeed
      rw [Text.lines_of_no_feed noFeed filled, Text.lines_of_no_feed noFeed' (by simp [filled])]
      exact congrArg (fun said => [said]) (tidied_append_trailer trailer line)
  | @line line tail ending ending' below below' noFeed trailer isEnd isEnd' rest ih =>
      have noFeed' := trailer.noFeed_append noFeed
      rw [Text.lines_append (Text.endsLine_append isEnd' _),
        Text.lines_append (Text.endsLine_append isEnd _), List.map_append, List.map_append,
        tidied_lines_append noFeed' isEnd', tidied_lines_append noFeed isEnd,
        tidied_append_trailer trailer, ih]

end Options

/-- A value that is not complete, without the line on which it begins. -/
def Continuation.unquoted (continuation : Continuation) : Continuation :=
  { continuation with content := [] }

/-- An entry without the line on which it begins. -/
def Entry.unquoted (entry : Entry) : Entry :=
  { entry with content := "" }

/-- A reader that has forgotten what the lines look like. -/
def Reader.unquoted (reader : Reader) : Reader :=
  { reader with pending := reader.pending.map Continuation.unquoted }

/-- What comes of taking a line, without the lines that are quoted. -/
def Reader.unquotedFed (fed : Except Fault (Reader × Option Entry)) :
    Except Fault (Reader × Option Entry) :=
  (fed.mapError Fault.unquoted).map fun next => (next.1.unquoted, next.2.map Entry.unquoted)

variable {reader reader' : Reader}

theorem Continuation.entry_unquoted {first second : Continuation} (key : first.key = second.key)
    (value : Text.trim first.value = Text.trim second.value) (number : first.line = second.line) :
    (first.entry options).unquoted = (second.entry options).unquoted := by
  simp only [entry, Entry.unquoted, key, value, number]

/-- A reader in the middle of a value looks at no more than the tidied line. -/
theorem Reader.feedPending_congr_tidied {first second : Continuation}
    (readers : reader'.unquoted = reader.unquoted) (same : first.unquoted = second.unquoted)
    (said : options.tidied line' = options.tidied line) :
    unquotedFed (.ok (reader'.feedPending options first (options.uncommented line'))) =
      unquotedFed (.ok (reader.feedPending options second (options.uncommented line))) := by
  rcases first with ⟨key, value, number, content⟩
  rcases second with ⟨key', value', number', content'⟩
  rcases reader with ⟨scope, pending, above⟩
  rcases reader' with ⟨scope', pending', above'⟩
  simp only [Continuation.unquoted, Continuation.mk.injEq, and_true] at same
  simp only [unquoted, Reader.mk.injEq] at readers
  rcases same with ⟨rfl, rfl, rfl⟩
  rcases readers with ⟨rfl, _, rfl⟩
  have pieces : Text.trimEnd (options.uncommented line') =
      Text.trimEnd (options.uncommented line) := said
  simp only [feedPending, pieces]
  split
  · rfl
  · have entries := @Continuation.entry_unquoted options
      ⟨key, value ++ options.uncommented line', number, content⟩
      ⟨key, value ++ options.uncommented line, number, content'⟩ rfl
      (Options.trim_append_congr_tidied said value) rfl
    simp only [unquotedFed, mapError_ok, Except.map, Option.map_some, entries]

/-- A reader that takes an entry looks at the line to quote it only. -/
theorem Reader.feedEntry_congr (readers : reader'.unquoted = reader.unquoted)
    (line line' text : List Char) :
    unquotedFed (reader'.feedEntry options line' text) =
      unquotedFed (reader.feedEntry options line text) := by
  rcases reader with ⟨scope, pending, above⟩
  rcases reader' with ⟨scope', pending', above'⟩
  have forgotten := readers
  simp only [unquoted, Reader.mk.injEq] at readers
  rcases readers with ⟨rfl, _, rfl⟩
  simp only [feedEntry]
  cases splitEntry options text with
  | error lineFault => rfl
  | ok parts =>
      simp only [mapError_ok, bind, Except.bind, pure, Except.pure]
      split
      · rfl
      · simp only [unquotedFed, mapError_ok, Except.map, forgotten]
        rfl

/-- A reader looks at no more of a line than its tidied text, except to quote it. -/
theorem Reader.feed_congr_tidied (readers : reader'.unquoted = reader.unquoted)
    (said : options.tidied line' = options.tidied line) :
    unquotedFed (reader'.feed options line') = unquotedFed (reader.feed options line) := by
  have headers := Options.header?_congr_tidied said
  have trims := Options.trim_append_congr_tidied said []
  simp only [Options.uncommented, List.nil_append] at headers trims
  simp only [unquoted, Reader.mk.injEq] at readers
  rcases readers with ⟨scopes, pendings, numbers⟩
  have moved : ({ reader' with line := reader'.line + 1 } : Reader).unquoted =
      ({ reader with line := reader.line + 1 } : Reader).unquoted := by
    simp only [unquoted, scopes, pendings, numbers]
  cases waiting : reader.pending with
  | some continuation =>
      rw [waiting] at pendings
      rcases Option.map_eq_some_iff.mp pendings with ⟨continuation', waiting', same⟩
      rw [waiting, waiting'] at moved
      simp only [feed, waiting, waiting']
      exact feedPending_congr_tidied moved same said
  | none =>
      rw [waiting, Option.map_none, Option.map_eq_none_iff] at pendings
      simp only [feed, waiting, pendings, headers, trims, scopes, numbers]
      split
      · rfl
      · split
        · rfl
        · apply feedEntry_congr
          rfl

theorem Reader.of_unquotedFed_eq {first second : Except Fault (Reader × Option Entry)}
    (same : unquotedFed first = unquotedFed second) :
    (∃ fault fault', first = .error fault ∧ second = .error fault' ∧
      fault.unquoted = fault'.unquoted) ∨
    ∃ after after' entry entry', first = .ok (after, entry) ∧ second = .ok (after', entry') ∧
      after.unquoted = after'.unquoted ∧
      entry.map Entry.unquoted = entry'.map Entry.unquoted := by
  cases first with
  | error fault =>
      cases second with
      | error fault' => exact .inl ⟨fault, fault', rfl, rfl, Except.error.inj same⟩
      | ok next => cases same
  | ok next =>
      cases second with
      | error fault => cases same
      | ok next' =>
          have parts := Except.ok.inj same
          rw [Prod.mk.injEq] at parts
          exact .inr ⟨_, _, _, _, rfl, rfl, parts.1, parts.2⟩

theorem Entry.writeTo_congr_unquoted {entry entry' : Entry}
    (same : entry'.unquoted = entry.unquoted) (dictionary : Dictionary) :
    (entry'.writeTo dictionary).mapError Fault.unquoted =
      (entry.writeTo dictionary).mapError Fault.unquoted := by
  rcases entry with ⟨key, value, number, content⟩
  rcases entry' with ⟨key', value', number', content'⟩
  simp only [unquoted, Entry.mk.injEq, and_true] at same
  rcases same with ⟨rfl, rfl, rfl⟩
  simp only [writeTo]
  cases dictionary.set key' value' <;> rfl

/-- What comes of loading, without the line that is quoted. -/
def unquotedResult (result : Except Fault Nat × Dictionary) : Except Fault Nat × Dictionary :=
  (result.1.mapError Fault.unquoted, result.2)

/-- Lines that say the same are loaded alike, up to what is quoted of them. -/
theorem loadLines_congr_tidied {lines lines' : List (List Char)}
    (readers : reader'.unquoted = reader.unquoted)
    (said : lines'.map options.tidied = lines.map options.tidied) (written : Nat)
    (dictionary : Dictionary) :
    unquotedResult (loadLines options reader' written dictionary lines') =
      unquotedResult (loadLines options reader written dictionary lines) := by
  induction lines generalizing lines' reader reader' written dictionary with
  | nil =>
      have noLine : lines' = [] := by simpa using said
      have pendings := congrArg Reader.pending readers
      simp only [Reader.unquoted] at pendings
      simp only [noLine, loadLines, Reader.finish]
      cases waiting : reader.pending with
      | none =>
          rw [waiting, Option.map_none, Option.map_eq_none_iff] at pendings
          rw [pendings]
      | some continuation =>
          rw [waiting] at pendings
          rcases Option.map_eq_some_iff.mp pendings with ⟨continuation', waiting', same⟩
          simp only [Continuation.unquoted, Continuation.mk.injEq, and_true] at same
          have wrote := Entry.writeTo_congr_unquoted (@Continuation.entry_unquoted options
            continuation' continuation same.1 (congrArg Text.trim same.2.1) same.2.2) dictionary
          simp only [waiting', Option.map_some]
          rcases mapError_eq_mapError_iff.mp wrote with
            ⟨after, wrote', wrote⟩ | ⟨fault', fault, wrote', wrote, faults⟩
          · rw [wrote', wrote]
          · rw [wrote', wrote]
            simp only [unquotedResult, mapError_error, faults]
  | cons line rest ih =>
      rcases lines' with _ | ⟨line', rest'⟩
      · cases said
      · simp only [List.map_cons, List.cons.injEq] at said
        rcases said with ⟨saidLine, saidRest⟩
        have fed := Reader.feed_congr_tidied readers saidLine
        simp only [loadLines]
        rcases Reader.of_unquotedFed_eq fed with
          ⟨fault', fault, failed', failed, faults⟩ |
          ⟨after', after, entry', entry, fed', fed, readers, entries⟩
        · simp only [failed', failed, unquotedResult, mapError_error, faults]
        · simp only [fed', fed]
          cases entry with
          | none =>
              rw [Option.map_none, Option.map_eq_none_iff] at entries
              rw [entries]
              exact ih readers saidRest written dictionary
          | some entry =>
              rcases Option.map_eq_some_iff.mp entries with ⟨own, rfl, same⟩
              simp only
              rcases mapError_eq_mapError_iff.mp
                (Entry.writeTo_congr_unquoted same dictionary) with
                ⟨changed, wrote', wrote⟩ | ⟨fault', fault, wrote', wrote, faults⟩
              · rw [wrote', wrote]
                exact ih readers saidRest (written + 1) changed
              · simp only [wrote', wrote, unquotedResult, mapError_error, faults]

/-- A value that is open begins on a line behind `low`. -/
def Reader.WaitsBehind (low : Nat) (reader : Reader) : Prop :=
  low ≤ reader.line ∧ ∀ continuation, reader.pending = some continuation →
    low < continuation.line ∧ continuation.line ≤ reader.line

theorem Reader.Step.waitsBehind {low : Nat} {after : Reader} {handed : Option Entry}
    (step : Step options reader line after handed) (waits : reader.WaitsBehind low) :
    after.WaitsBehind low ∧
      ∀ entry, handed = some entry → low < entry.line ∧ entry.line ≤ after.line := by
  rcases waits with ⟨reached, waits⟩
  have next : low ≤ reader.line + 1 := by omega
  have ownLine : low < reader.line + 1 ∧ reader.line + 1 ≤ reader.line + 1 := by omega
  have waitsLonger : ∀ continuation, reader.pending = some continuation →
      low < continuation.line ∧ continuation.line ≤ reader.line + 1 := by
    intro continuation waiting
    have begun := waits continuation waiting
    omega
  cases step with
  | goesOn continuation waiting open_ =>
      refine ⟨⟨next, ?_⟩, by simp⟩
      rintro _ ⟨⟩
      exact waitsLonger continuation waiting
  | ends continuation waiting closed =>
      refine ⟨⟨next, by simp⟩, ?_⟩
      rintro _ ⟨⟩
      exact waitsLonger continuation waiting
  | header name idle on isHeader => exact ⟨⟨next, by simp⟩, by simp⟩
  | blank idle noHeader empty => exact ⟨⟨next, by simp⟩, by simp⟩
  | begins key value idle noHeader filled split multiline open_ =>
      refine ⟨⟨next, ?_⟩, by simp⟩
      rintro _ ⟨⟩
      exact ownLine
  | whole key value idle noHeader filled split closed =>
      refine ⟨⟨next, by simp⟩, ?_⟩
      rintro _ ⟨⟩
      exact ownLine

theorem Reader.of_feed_eq_error {fault : Fault} (failed : reader.feed options line = .error fault) :
    ∃ lineFault, fault = LineFault.fault (reader.line + 1) (.ofList line) lineFault := by
  simp only [feed] at failed
  split at failed
  · cases failed
  · split at failed
    · cases failed
    · split at failed
      · cases failed
      · simp only [feedEntry] at failed
        cases split : splitEntry options (Text.trim (stripComment options.commentMarks line)) with
        | error lineFault =>
            rw [split] at failed
            exact ⟨lineFault, (Except.error.inj failed).symm⟩
        | ok parts =>
            simp only [split, mapError_ok, bind, Except.bind, pure, Except.pure] at failed
            split at failed <;> cases failed

theorem Entry.within_of_writeTo_eq_error {entry : Entry} {dictionary : Dictionary} {fault : Fault}
    {low high : Nat} (failed : entry.writeTo dictionary = .error fault)
    (placed : low < entry.line ∧ entry.line ≤ high) : fault.Within low high := by
  cases set : dictionary.set entry.key entry.value with
  | ok after =>
      rw [writeTo_of_set_eq_ok set] at failed
      cases failed
  | error refusal =>
      rw [writeTo_of_set_eq_error set] at failed
      cases failed
      exact ⟨entry.line, entry.content, _, rfl, placed⟩

/-- A fault has the number of one of the lines that are read, or of the one on which an open value
begins. -/
theorem within_of_loadLines_eq_error {low written : Nat} {dictionary final : Dictionary}
    {lines : List (List Char)} {fault : Fault} (waits : reader.WaitsBehind low)
    (failed : loadLines options reader written dictionary lines = (.error fault, final)) :
    fault.Within low (reader.line + lines.length) := by
  induction lines generalizing reader written dictionary with
  | nil =>
      simp only [loadLines, Reader.finish] at failed
      cases waiting : reader.pending with
      | none =>
          rw [waiting] at failed
          cases failed
      | some continuation =>
          simp only [waiting, Option.map_some] at failed
          cases wrote : (continuation.entry options).writeTo dictionary with
          | ok after =>
              rw [wrote] at failed
              cases failed
          | error refused =>
              rw [wrote] at failed
              cases failed
              exact Entry.within_of_writeTo_eq_error wrote (waits.2 continuation waiting)
  | cons line rest ih =>
      rw [List.length_cons]
      simp only [loadLines] at failed
      cases fed : reader.feed options line with
      | error unread =>
          rw [fed] at failed
          cases failed
          rcases Reader.of_feed_eq_error fed with ⟨lineFault, rfl⟩
          have reached := waits.1
          exact ⟨reader.line + 1, _, _, rfl, by omega, by omega⟩
      | ok next =>
          rcases next with ⟨after, handed⟩
          have step := Reader.step_of_feed fed
          rcases step.waitsBehind waits with ⟨waitsAfter, placed⟩
          have counted : after.line + rest.length = reader.line + (rest.length + 1) := by
            have lineOfStep := step.line_eq
            omega
          rw [← counted]
          cases handed with
          | none =>
              simp only [fed] at failed
              exact ih waitsAfter failed
          | some entry =>
              simp only [fed] at failed
              cases wrote : entry.writeTo dictionary with
              | error refused =>
                  rw [wrote] at failed
                  cases failed
                  rcases placed entry rfl with ⟨behind, reached⟩
                  exact Entry.within_of_writeTo_eq_error wrote ⟨behind, by omega⟩
              | ok changed =>
                  rw [wrote] at failed
                  exact ih waitsAfter failed

theorem Options.Trailer.trim_uncommented (trailer : options.Trailer line) :
    Text.trim (options.uncommented line) = [] :=
  Text.trim_eq_nil_iff.mpr trailer.blank_uncommented

/-- Where no value is open, a line of a trailer only counts as a line. -/
theorem loadLines_trailer (trailer : options.Trailer line) (idle : reader.pending = none)
    (written : Nat) (dictionary : Dictionary) (below : List (List Char)) :
    loadLines options reader written dictionary (line :: below) =
      loadLines options (reader.lower 1) written dictionary below := by
  have noHeader : header? (options.uncommented line) = none := by
    cases found : header? (options.uncommented line) with
    | none => rfl
    | some name =>
        rcases header?_eq_some_iff.mp found with ⟨inner, _, trimmed, _⟩
        rw [trailer.trim_uncommented] at trimmed
        cases trimmed
  have fed := (Reader.Step.blank idle (fun _ => noHeader) trailer.trim_uncommented).feed_eq
  have passed : ({ reader with line := reader.line + 1, pending := none } : Reader) =
      reader.lower 1 := by
    simp only [Reader.lower, idle, Option.map_none, Nat.add_comm 1]
  rw [passed] at fed
  simp only [loadLines, fed]

/-- A line of a trailer where no value is open moves the faults of the lines below. -/
theorem loadInto_insert_trailer (trailer : options.Trailer line) {text text' : String}
    {above below : List (List Char)} (lines : Text.lines text.toList = above ++ below)
    (lines' : Text.lines text'.toList = above ++ line :: below)
    (closed : ∀ reader, Reader.behind options {} above = .ok reader → reader.pending = none)
    (dictionary : Dictionary) :
    loadInto options text' dictionary =
      ((loadInto options text dictionary).1.mapError (Fault.pushed above.length),
        (loadInto options text dictionary).2) := by
  cases accepted : options.validate with
  | error fault =>
      have kept : fault.pushed above.length = fault := by
        unfold Options.validate at accepted
        split at accepted <;> cases accepted
        rfl
      simp only [loadInto, accepted, mapError_error, kept]
  | ok _ =>
      simp only [loadInto, accepted, lines, lines']
      have start : Reader.WaitsBehind 0 {} := ⟨Nat.le_refl _, by simp⟩
      rcases loadLines_append closed below 0 dictionary with
        ⟨fault, middle, failed, whole⟩ | ⟨after, total, middle, passed, loaded, whole⟩
      · rcases loadLines_append closed (line :: below) 0 dictionary with
          ⟨fault', middle', failed', whole'⟩ | ⟨_, _, _, _, loaded', _⟩
        · have within := within_of_loadLines_eq_error start failed
          cases failed.symm.trans failed'
          rw [whole, whole', mapError_error, within.pushed_eq_self (by simp)]
        · cases failed.symm.trans loaded'
      · rcases loadLines_append closed (line :: below) 0 dictionary with
          ⟨_, _, failed', _⟩ | ⟨after', total', middle', passed', loaded', whole'⟩
        · cases loaded.symm.trans failed'
        · cases passed.symm.trans passed'
          cases loaded.symm.trans loaded'
          have idle := closed after passed
          have number : after.line = above.length := by
            have counted := Reader.line_behind passed
            simpa using counted
          have waits : after.WaitsBehind above.length := by
            refine ⟨number.ge, ?_⟩
            simp [idle]
          have lowered := loadLines_lower options 1 0 after total middle below
          simp only [Nat.zero_add] at lowered
          rw [whole, whole', loadLines_trailer trailer idle, lowered]
          rcases rest : loadLines options after total middle below with ⟨fault | count, final⟩
          · have within := within_of_loadLines_eq_error waits rest
            simp only [mapError_error, within.pushed_eq_lower (Nat.le_refl _)]
          · rfl

/-- Trailers behind lines, and other ends of lines, change nothing of what comes of loading a text
but the line that a fault quotes. One more line of a trailer, where no value is open, changes
nothing but the numbers of the lines below. -/
theorem loadInto_relaid (options : Options) (text : String) (dictionary : Dictionary) :
    (∀ text' : String, options.Relaid text.toList text'.toList →
      (loadInto options text' dictionary).2 = (loadInto options text dictionary).2 ∧
      (loadInto options text' dictionary).1.mapError Fault.unquoted =
        (loadInto options text dictionary).1.mapError Fault.unquoted) ∧
    ∀ (text' : String) (above : List (List Char)) (line : List Char) (below : List (List Char)),
      options.Trailer line → Text.lines text.toList = above ++ below →
      Text.lines text'.toList = above ++ line :: below →
      (∀ reader, Reader.behind options {} above = .ok reader → reader.pending = none) →
      loadInto options text' dictionary =
        ((loadInto options text dictionary).1.mapError (Fault.pushed above.length),
          (loadInto options text dictionary).2) := by
  refine ⟨?_, ?_⟩
  · intro text' relaid
    have same : unquotedResult (loadInto options text' dictionary) =
        unquotedResult (loadInto options text dictionary) := by
      cases accepted : options.validate with
      | error fault => simp only [loadInto, accepted]
      | ok _ =>
          simp only [loadInto, accepted]
          exact loadLines_congr_tidied rfl relaid.tidied_lines 0 dictionary
    rw [unquotedResult, unquotedResult, Prod.mk.injEq] at same
    exact ⟨same.2, same.1⟩
  · intro text' above line below trailer lines lines' closed
    exact loadInto_insert_trailer trailer lines lines' closed dictionary

/-- Comments and blanks behind a header and behind the lines of a quoted value leave the fault of a
later line where it is, and a line of a comment moves it down. -/
theorem loadInto_relaid_value :
    ∃ options : Options, options.sections = true ∧ options.multiline = true ∧
      options.Relaid "[s]\na = \"x\\\ny\"\nb".toList
        "[s] ; h\r\na = \"x\\ # c\ny\" \nb ;".toList ∧
      (loadInto options "[s] ; h\r\na = \"x\\ # c\ny\" \nb ;" .emptyObject).1.mapError
        Fault.unquoted = .error (LineFault.fault 4 "" .missingValue) ∧
      (loadInto options "[s]\n # z\na = \"x\\\ny\"\nb" .emptyObject).1 =
        .error (LineFault.fault 5 "b" .missingValue) := by
  generalize isOptions : ({ Options.ini with multiline := true } : Options) = options
  have commentTail : ∀ mark ∈ ['#', ';'], ∀ text, '\n' ∉ text →
      options.Trailer (' ' :: mark :: text) := by
    rw [← isOptions]
    intro mark mem text noFeed
    have isMark : mark ∈ Options.commentMarks { Options.ini with multiline := true } := mem
    apply @Options.Trailer.comment _ [' '] text mark Text.isBlank_of_mem_space isMark
    rcases List.mem_pair.mp mem with rfl | rfl <;> simpa using noFeed
  have blankTail : options.Trailer [' '] := .blanks Text.isBlank_of_mem_space (by decide)
  have relaid : options.Relaid "[s]\na = \"x\\\ny\"\nb".toList
      "[s] ; h\r\na = \"x\\ # c\ny\" \nb ;".toList :=
    @Options.Relaid.line options "[s]".toList " ; h".toList ['\n'] ['\r', '\n'] _ _ (by decide)
      (commentTail ';' (by decide) " h".toList (by decide)) (by decide) (by decide)
      (@Options.Relaid.line options "a = \"x\\".toList " # c".toList ['\n'] ['\n'] _ _ (by decide)
        (commentTail '#' (by decide) " c".toList (by decide)) (by decide) (by decide)
        (@Options.Relaid.line options "y\"".toList [' '] ['\n'] ['\n'] _ _ (by decide) blankTail
          (by decide) (by decide)
          (@Options.Relaid.last options ['b'] [' ', ';'] (by decide) (by decide)
            (commentTail ';' (by decide) [] (by decide)))))
  have trailer : options.Trailer " # z".toList :=
    commentTail '#' (by decide) " z".toList (by decide)
  have loaded : (loadInto options "[s]\na = \"x\\\ny\"\nb" .emptyObject).1 =
      .error (LineFault.fault 4 "b" .missingValue) := by
    rw [← isOptions]
    decide
  have closed : ∀ reader, Reader.behind options {} ["[s]".toList] = .ok reader →
      reader.pending = none := by
    rw [← isOptions]
    rintro reader ⟨⟩
    rfl
  rcases loadInto_relaid options "[s]\na = \"x\\\ny\"\nb" .emptyObject with ⟨ends, inserted⟩
  have below := inserted "[s]\n # z\na = \"x\\\ny\"\nb" ["[s]".toList] " # z".toList
    ["a = \"x\\".toList, "y\"".toList, ['b']] trailer (by decide) (by decide) closed
  refine ⟨options, ?_, ?_, relaid, ?_, ?_⟩
  · rw [← isOptions]
    rfl
  · rw [← isOptions]
  · rw [(ends _ relaid).2, loaded]
    rfl
  · rw [below, loaded]
    rfl

end KeyValue

end ConfigTree
