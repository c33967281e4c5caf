import ConfigTree.Proofs.Dictionary.Write
import ConfigTree.Proofs.KeyValue.Reading
import ConfigTree.Proofs.Path.Pieces

/-!
# Where entries are written

An entry is written below the scope in force, at a key of its own. That key has
at least one piece when the line has a separator, because the reader refuses a
key of dots there. A bare key is not looked at: where keys without a value are
allowed, a line of dots is handed out as an entry and lands on the scope itself,
or on the root where the scope has no pieces. `Options.takesDots` is the exact
condition, and it decides whether a loaded text has an object at its root.
-/

namespace ConfigTree.KeyValue

/-- Whether keys without a value are allowed and the line has dots and blanks only in front of its
comment, a dot among them. -/
def Options.takesDots (options : Options) (line : List Char) : Bool :=
  options.allowMissingValues && (stripComment options.commentMarks line).contains '.' &&
    (stripComment options.commentMarks line).all fun c => c == '.' || Text.isBlank c

theorem Options.takesDots_iff {options : Options} {line : List Char} :
    options.takesDots line = true ↔
      options.allowMissingValues = true ∧ '.' ∈ stripComment options.commentMarks line ∧
        ∀ c ∈ stripComment options.commentMarks line, c = '.' ∨ Text.isBlank c = true := by
  simp [takesDots, and_assoc]

theorem mem_of_separator? {options : Options} {entry : List Char} {separator : Char}
    (found : separator? options entry = some separator) :
    separator ∈ entry ∧ separator ≠ '.' ∧ Text.isBlank separator = false := by
  unfold separator? at found
  split at found
  · next equals =>
    cases found
    simp only [Bool.and_eq_true, List.contains_iff_mem] at equals
    exact ⟨equals.2, by decide, by decide⟩
  · split at found
    · next colon =>
      cases found
      simp only [Bool.and_eq_true, List.contains_iff_mem] at colon
      exact ⟨colon.2, by decide, by decide⟩
    · cases found

/-- An entry that can be split is a bare key, or its key leads somewhere. -/
theorem bare_or_separated_of_splitEntry {options : Options} {entry key value : List Char}
    (split : splitEntry options entry = .ok (key, value)) :
    (options.allowMissingValues = true ∧ key = entry) ∨
      (Path.pieces key ≠ [] ∧ ∃ separator, separator? options entry = some separator) := by
  unfold splitEntry at split
  cases found : separator? options entry with
  | none =>
      simp only [found] at split
      split at split
      · next allowed =>
        cases split
        exact Or.inl ⟨allowed, rfl⟩
      · cases split
  | some separator =>
      simp only [found] at split
      split at split
      · split at split
        · cases split
        · next leads =>
          cases split
          exact Or.inr ⟨leads, separator, rfl⟩
      · cases split

/-- The key of an entry has no piece exactly if its line is taken for its dots. -/
theorem pieces_eq_nil_iff_takesDots {options : Options} {line key value : List Char}
    (filled : Text.trim (stripComment options.commentMarks line) ≠ [])
    (split : splitEntry options (Text.trim (stripComment options.commentMarks line)) =
      .ok (key, value)) :
    Path.pieces key = [] ↔ options.takesDots line = true := by
  rw [Options.takesDots_iff]
  rcases bare_or_separated_of_splitEntry split with ⟨allowed, rfl⟩ | ⟨leads, separator, found⟩
  · rw [Path.pieces_trim, Path.pieces_eq_nil_iff]
    constructor
    · intro dotsAndBlanks
      refine ⟨allowed, ?_, dotsAndBlanks⟩
      -- A text of blanks alone would have been skipped as a blank line.
      by_contra noDot
      apply filled
      rw [Text.trim_eq_nil_iff]
      intro c mem
      rcases dotsAndBlanks c mem with rfl | blank
      · exact absurd mem noDot
      · exact blank
    · exact fun dots => dots.2.2
  · constructor
    · exact fun noPiece => absurd noPiece leads
    · rintro ⟨_, _, dotsAndBlanks⟩
      rcases mem_of_separator? found with ⟨mem, notDot, notBlank⟩
      have trimmed := (Text.forall_mem_trim_iff fun _ blank => Or.inr blank).mpr dotsAndBlanks
      rcases trimmed separator mem with dot | blank
      · exact absurd dot notDot
      · simp [notBlank] at blank

/-- A key stands below its scope by a key of its own, which leads somewhere unless the line on
which it begins is taken for its dots. -/
def HasOwnKey (options : Options) (scope key content : List Char) : Prop :=
  ∃ own, key = qualify scope own ∧ (Path.pieces own = [] ↔ options.takesDots content = true)

namespace Reader

/-- The value that waits for more lines has a key of its own. -/
def WaitsBelowScope (options : Options) (reader : Reader) : Prop :=
  ∀ continuation, reader.pending = some continuation →
    HasOwnKey options reader.scope continuation.key continuation.content

/-- The entry stands below a scope by a key of its own. -/
def EntersBelow (options : Options) (scope : List Char) (entry : Entry) : Prop :=
  HasOwnKey options scope entry.key.toList entry.content.toList

theorem entersBelow_entry {options : Options} {scope : List Char} {continuation : Continuation}
    (own : HasOwnKey options scope continuation.key continuation.content) :
    EntersBelow options scope (continuation.entry options) := by
  simpa [EntersBelow, Continuation.entry] using own

/-- One line keeps a waiting value below its scope, and what it hands out is below that scope. -/
theorem Step.waitsBelowScope {options : Options} {reader after : Reader} {line : List Char}
    {handed : Option Entry} (step : Step options reader line after handed)
    (waits : reader.WaitsBelowScope options) :
    after.WaitsBelowScope options ∧
      ∀ entry, handed = some entry → EntersBelow options after.scope entry := by
  cases step with
  | goesOn continuation waiting open_ =>
      refine ⟨?_, by simp⟩
      rintro _ ⟨⟩
      exact waits continuation waiting
  | ends continuation waiting closed =>
      refine ⟨by simp [WaitsBelowScope], ?_⟩
      rintro _ ⟨⟩
      exact entersBelow_entry (waits continuation waiting)
  | header name idle on isHeader => exact ⟨by simp [WaitsBelowScope], by simp⟩
  | blank idle noHeader empty => exact ⟨by simp [WaitsBelowScope], by simp⟩
  | begins key value idle noHeader filled split multiline open_ =>
      refine ⟨?_, by simp⟩
      rintro _ ⟨⟩
      exact ⟨key, rfl, pieces_eq_nil_iff_takesDots filled split⟩
  | whole key value idle noHeader filled split closed =>
      refine ⟨by simp [WaitsBelowScope], ?_⟩
      rintro _ ⟨⟩
      exact entersBelow_entry ⟨key, rfl, pieces_eq_nil_iff_takesDots filled split⟩

theorem entersBelow_of_mem_read {options : Options} {reader : Reader}
    (waits : reader.WaitsBelowScope options) (lines : List (List Char)) :
    ∀ placed ∈ (reader.read options lines).handed,
      EntersBelow options placed.scope placed.entry := by
  induction lines generalizing reader with
  | nil =>
      intro placed placed_mem
      simp only [read, finish] at placed_mem
      cases waiting : reader.pending with
      | none => simp [waiting] at placed_mem
      | some continuation =>
          simp only [waiting, Option.map_some, Option.toList_some, List.map_cons, List.map_nil,
            List.mem_singleton] at placed_mem
          subst placed
          exact entersBelow_entry (waits continuation waiting)
  | cons line rest ih =>
      intro placed placed_mem
      simp only [read] at placed_mem
      cases fed : reader.feed options line with
      | error fault => simp [fed] at placed_mem
      | ok next =>
          rcases next with ⟨after, handed⟩
          rcases (step_of_feed fed).waitsBelowScope waits with ⟨afterWaits, handedBelow⟩
          simp only [fed, List.mem_append, List.mem_map, Option.mem_toList] at placed_mem
          rcases placed_mem with ⟨entry, entry_handed, rfl⟩ | later
          · exact handedBelow entry entry_handed
          · exact ih afterWaits placed later

end Reader

theorem tokenize_qualify_eq_ok_iff {scope own : List Char} {segments : List Segment} :
    Path.tokenize (.ofList (qualify scope own)) = .ok segments ↔
      ∃ before behind, Path.tokenize (.ofList scope) = .ok before ∧
        Path.tokenize (.ofList own) = .ok behind ∧ segments = before ++ behind := by
  by_cases empty : scope = []
  · subst scope
    have root : ∀ before, Path.tokenize (.ofList []) = .ok before ↔ before = [] := by
      intro before
      rw [Path.tokenize_eq_ok_iff]
      simp [Path.readPieces, eq_comm]
    simp [qualify, root]
  · simp only [qualify, empty, if_false]
    exact Path.tokenize_join_eq_ok_iff

theorem pieces_qualify_eq_nil_iff {scope own : List Char} :
    Path.pieces (qualify scope own) = [] ↔ Path.pieces scope = [] ∧ Path.pieces own = [] := by
  by_cases empty : scope = []
  · simp [qualify, empty]
  · simp [qualify, empty, Path.pieces_append_dot]

theorem of_writeTo_eq_ok {entry : Entry} {dictionary after : Dictionary}
    (written : entry.writeTo dictionary = .ok after) :
    ∃ keys : List String, Path.tokenize entry.key = .ok (keys.map Segment.key) ∧
      after.root = some (Node.put (.ofText entry.value) keys dictionary.root) := by
  have accepted : dictionary.write entry.key (some entry.value) = .ok after := by
    cases set : dictionary.set entry.key entry.value with
    | error refusal =>
        rw [writeTo_of_set_eq_error set] at written
        cases written
    | ok changed =>
        rw [writeTo_of_set_eq_ok set] at written
        exact set.trans written
  rcases Dictionary.of_write_eq_ok accepted with ⟨keys, read, _, root, _⟩
  exact ⟨keys, read, root⟩

/-- A written entry stands at the keys of its scope and then at those of its own key. -/
theorem of_writeTo_qualify_eq_ok {entry : Entry} {scope own : List Char}
    {dictionary after : Dictionary} (key : entry.key = .ofList (qualify scope own))
    (written : entry.writeTo dictionary = .ok after) :
    ∃ scopeKeys ownKeys : List String,
      Path.tokenize (.ofList scope) = .ok (scopeKeys.map Segment.key) ∧
      Path.tokenize (.ofList own) = .ok (ownKeys.map Segment.key) ∧
      after.root = some (Node.put (.ofText entry.value) (scopeKeys ++ ownKeys) dictionary.root) ∧
      (ownKeys = [] ↔ Path.pieces own = []) := by
  rcases of_writeTo_eq_ok written with ⟨keys, read, root⟩
  rw [key, tokenize_qualify_eq_ok_iff] at read
  rcases read with ⟨before, behind, scopeRead, ownRead, split⟩
  rcases List.map_eq_append_iff.mp split with ⟨scopeKeys, ownKeys, rfl, rfl, rfl⟩
  have noKeys := Path.segments_eq_nil_iff ownRead
  rw [List.map_eq_nil_iff, String.toList_ofList] at noKeys
  exact ⟨scopeKeys, ownKeys, scopeRead, ownRead, root, noKeys⟩

theorem isObject_root_of_writeTo {entry : Entry} {dictionary after : Dictionary}
    (written : entry.writeTo dictionary = .ok after) :
    (∃ fields, after.root = some (.object fields)) ↔ Path.pieces entry.key.toList ≠ [] := by
  rcases of_writeTo_eq_ok written with ⟨keys, read, root⟩
  rw [root, ne_eq, ← Path.segments_eq_nil_iff read]
  cases keys <;> simp [Node.put, Node.ofText]

theorem isObject_root_of_writeAll {ending : Option Fault} {written total : Nat}
    {dictionary final : Dictionary} {entries : List Entry} {last : Entry}
    (run : writeAll ending written dictionary entries = (.ok total, final))
    (isLast : entries.getLast? = some last) :
    (∃ fields, final.root = some (.object fields)) ↔ Path.pieces last.key.toList ≠ [] := by
  induction entries generalizing written dictionary with
  | nil => simp at isLast
  | cons entry rest ih =>
      simp only [writeAll] at run
      cases wrote : entry.writeTo dictionary with
      | error fault => simp [wrote] at run
      | ok after =>
          simp only [wrote] at run
          cases rest with
          | nil =>
              simp only [List.getLast?_singleton, Option.some.injEq] at isLast
              subst last
              cases ending with
              | some fault => simp [writeAll] at run
              | none =>
                  simp only [writeAll, Prod.mk.injEq] at run
                  rw [← run.2]
                  exact isObject_root_of_writeTo wrote
          | cons second more =>
              apply ih run
              simpa using isLast

/-- Loading writes the entries of the reading in order. Each of them has a key of its own below the
scope in force, and this key leads somewhere except where a line is taken for its dots: such an
entry replaces the node of the scope. A loaded text has an object at its root unless its last entry
is of this kind and its scope leads nowhere. -/
theorem entries_below_scope_except_dots {options : Options}
    (accepted : options.validate = .ok ()) (text : String) :
    (∀ dictionary, loadInto options text dictionary =
      writeAll (Reading.ofText options text).fault 0 dictionary
        ((Reading.ofText options text).handed.map Placed.entry)) ∧
    (∀ placed ∈ (Reading.ofText options text).handed, ∃ own : List Char,
      placed.entry.key = .ofList (qualify placed.scope own) ∧
      (Path.pieces own = [] ↔ options.takesDots placed.entry.content.toList = true) ∧
      ∀ dictionary after, placed.entry.writeTo dictionary = .ok after →
        ∃ scopeKeys ownKeys : List String,
          Path.tokenize (.ofList placed.scope) = .ok (scopeKeys.map Segment.key) ∧
          Path.tokenize (.ofList own) = .ok (ownKeys.map Segment.key) ∧
          after.root = some (Node.put (.ofText placed.entry.value) (scopeKeys ++ ownKeys)
            dictionary.root) ∧
          (ownKeys = [] ↔ options.takesDots placed.entry.content.toList = true)) ∧
    (∀ dictionary, load options text = .ok dictionary →
      ((∃ fields, dictionary.root = some (.object fields)) ↔
        ∀ last, (Reading.ofText options text).handed.getLast? = some last →
          ¬(options.takesDots last.entry.content.toList = true ∧
            Path.pieces last.scope = []))) := by
  have below : ∀ placed ∈ (Reading.ofText options text).handed,
      Reader.EntersBelow options placed.scope placed.entry :=
    Reader.entersBelow_of_mem_read (by simp [Reader.WaitsBelowScope]) (Text.lines text.toList)
  refine ⟨loadInto_eq_writeOnto accepted text, ?_, ?_⟩
  · intro placed placed_mem
    rcases below placed placed_mem with ⟨own, key, dots⟩
    have keyText : placed.entry.key = .ofList (qualify placed.scope own) := by
      rw [← key, String.ofList_toList]
    refine ⟨own, keyText, dots, ?_⟩
    intro dictionary after written
    rw [← dots]
    exact of_writeTo_qualify_eq_ok keyText written
  · intro dictionary loaded
    rcases writeOnto_of_load_eq_ok accepted loaded with ⟨total, run⟩
    cases isLast : (Reading.ofText options text).handed.getLast? with
    | none =>
        rw [List.getLast?_eq_none_iff] at isLast
        simp only [Reading.writeOnto, isLast, List.map_nil, writeAll] at run
        split at run
        · cases run
          simp [Dictionary.emptyObject, Dictionary.ofNode, Node.merged, Node.mergedFields]
        · cases run
    | some last =>
        have lastEntry : ((Reading.ofText options text).handed.map Placed.entry).getLast? =
            some last.entry := by
          simp [isLast]
        rcases below last (List.mem_of_getLast? isLast) with ⟨own, key, dots⟩
        rw [isObject_root_of_writeAll run lastEntry, key, ne_eq, pieces_qualify_eq_nil_iff, dots]
        simp [and_comm]

/-- In the dialect of properties a line of dots replaces all that was read before it. -/
theorem entries_below_scope_except_dots_properties :
    Options.properties.validate = .ok () ∧
      ∃ dictionary, load .properties "a = 1\n." = .ok dictionary ∧
        ¬∃ fields, dictionary.root = some (.object fields) := by
  have isLoaded : (load .properties "a = 1\n.").isOk = true := by decide
  have lastTakesDots : ((Reading.ofText .properties "a = 1\n.").handed.getLast?.map fun last =>
      Options.properties.takesDots last.entry.content.toList &&
        (Path.pieces last.scope).isEmpty) = some true := by decide
  cases loaded : load .properties "a = 1\n." with
  | error fault => simp [loaded, Except.isOk, Except.toBool] at isLoaded
  | ok dictionary =>
      refine ⟨rfl, dictionary, rfl, ?_⟩
      intro isObject
      rcases Option.map_eq_some_iff.mp lastTakesDots with ⟨last, isLast, dots⟩
      exact ((entries_below_scope_except_dots rfl "a = 1\n.").2.2 dictionary loaded).mp isObject
        last isLast (by simpa using dots)

/-- Not every text that can be loaded has an object at its root. -/
theorem not_isObject_root_of_load :
    ¬∀ (options : Options) (text : String) (dictionary : Dictionary),
      options.validate = .ok () → load options text = .ok dictionary →
        ∃ fields, dictionary.root = some (.object fields) := by
  intro claimed
  have rootIsValue : (load .properties "a = 1\n.").map
      (fun dictionary => dictionary.root.map Node.isValue) = .ok (some true) := by decide
  cases loaded : load .properties "a = 1\n." with
  | error fault => simp [loaded, Except.map] at rootIsValue
  | ok dictionary =>
      rcases claimed .properties "a = 1\n." dictionary rfl loaded with ⟨fields, root⟩
      simp [loaded, Except.map, root, Node.isValue] at rootIsValue

end ConfigTree.KeyValue
