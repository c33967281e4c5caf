import ConfigTree.Proofs.KeyValue.Entries
import ConfigTree.Proofs.KeyValue.Joined
import ConfigTree.Proofs.KeyValue.Line
import ConfigTree.Proofs.KeyValue.OwnKey
import ConfigTree.Proofs.Path.Names

/-!
# Values on several lines

A value is put together from the pieces on its lines. The first line is trimmed on both
sides, those between at the end, and the last one not at all, yet nothing but blanks at
the ends of the whole is lost: on each line that goes on, the backslash stands behind
its piece and keeps the blanks there.

Until the value is complete, its lines mean nothing else. The entry is the one of a
block in the sense of the layout, so the lines above and below are read as if the block
were a single line.
-/

namespace ConfigTree.KeyValue

/-- The line of a key and the first piece of a value that goes on. -/
def openLine (key : String) (first : List Char) : List Char :=
  key.toList ++ " = ".toList ++ first ++ ['\\']

/-- The lines on which a value goes on, with a backslash behind each piece but the last one. Where
the text ends before the value does, there is no last piece. -/
def moreLines (middle : List (List Char)) (last : Option (List Char)) : List (List Char) :=
  middle.map (· ++ ['\\']) ++ last.toList

/-- What the pieces are together. -/
def joinPieces (first : List Char) (middle : List (List Char)) (last : Option (List Char)) :
    List Char :=
  first ++ middle.flatten ++ last.getD []

/-- A key and the pieces of a value can be written on lines that go on. -/
structure Options.Continues (options : Options) (key : String) (first : List Char)
    (middle : List (List Char)) (last : Option (List Char)) : Prop where
  noEquals : '=' ∉ key.toList ++ first
  unmarked : ∀ c ∈ key.toList ++ joinPieces first middle last, c ∉ options.commentMarks
  closed : ∀ piece, last = some piece → (Text.trimEnd piece).getLast? ≠ some '\\'

variable {options : Options} {key : String} {first : List Char} {middle : List (List Char)}
  {last : Option (List Char)}

theorem openLine_eq (key : String) (first : List Char) :
    openLine key first = (key.toList ++ [' ']) ++ '=' :: (' ' :: first ++ ['\\']) := by
  simp [openLine]

theorem backslash_unmarked : '\\' ∉ options.commentMarks := by
  intro isMark
  simpa using mem_commentMarks isMark

/-- A piece and the backslash behind it are all that a line says. -/
theorem uncommented_concat_backslash {piece : List Char}
    (unmarked : ∀ c ∈ piece, c ∉ options.commentMarks) :
    options.uncommented (piece ++ ['\\']) = piece ++ ['\\'] := by
  apply uncommented_eq_self
  intro c mem
  rcases List.mem_append.mp mem with inPiece | isBackslash
  · exact unmarked c inPiece
  · rw [List.mem_singleton.mp isBackslash]
    exact backslash_unmarked

/-- The value goes on up to the last piece, or to the end of the text if there is none. -/
theorem goesOn_moreLines {below : List (List Char)}
    (unmarked : ∀ c ∈ middle.flatten ++ last.getD [], c ∉ options.commentMarks)
    (closed : ∀ piece, last = some piece → (Text.trimEnd piece).getLast? ≠ some '\\')
    (cutOff : last = none → below = []) (value : List Char) :
    options.GoesOn value (moreLines middle last) (joinPieces value middle last) below := by
  induction middle generalizing value with
  | nil =>
      cases last with
      | none =>
          rw [cutOff rfl]
          simpa [moreLines, joinPieces] using Options.GoesOn.cutOff
      | some piece =>
          have whole : options.uncommented piece = piece :=
            uncommented_eq_self fun c mem => unmarked c (by simpa using mem)
          have ended : ¬options.LeavesOpen piece := by
            rw [Options.LeavesOpen, whole]
            exact closed piece rfl
          simpa [moreLines, joinPieces, whole] using Options.GoesOn.ends ended
  | cons piece middle ih =>
      have whole : options.uncommented (piece ++ ['\\']) = piece ++ ['\\'] :=
        uncommented_concat_backslash fun c mem => unmarked c (by simp [mem])
      have kept : Text.trimEnd (piece ++ ['\\']) = piece ++ ['\\'] :=
        Text.trimEnd_concat piece rfl
      have leavesOpen : options.LeavesOpen (piece ++ ['\\']) := by
        rw [Options.LeavesOpen, whole, kept, List.getLast?_concat]
      have unmarkedRest : ∀ c ∈ middle.flatten ++ last.getD [], c ∉ options.commentMarks := by
        intro c mem
        apply unmarked c
        rw [List.flatten_cons, List.append_assoc]
        exact List.mem_append_right piece mem
      have rest := ih unmarkedRest (value ++ piece)
      have dropped : (Text.trimEnd (options.uncommented (piece ++ ['\\']))).dropLast = piece := by
        rw [whole, kept, List.dropLast_concat]
      rw [← dropped] at rest
      simpa [moreLines, joinPieces, dropped] using Options.GoesOn.goesOn leavesOpen rest

namespace Options.Continues

/-- The first line is cut at its equals sign, and the backslash stands at the end of its value. -/
theorem splits (continues : options.Continues key first middle last)
    (equals : options.equalsSeparator = true) (leads : Path.pieces key.toList ≠ []) :
    options.Splits (openLine key first)
      (.ok (Text.trim key.toList, Text.trimStart first ++ ['\\'])) := by
  have whole : options.uncommented (openLine key first) = openLine key first := by
    apply uncommented_concat_backslash
    intro c mem isMark
    simp only [List.mem_append] at mem
    rcases mem with (inKey | inEquals) | inFirst
    · exact continues.unmarked c (by simp [inKey]) isMark
    · have isEqualsOrBlank : c = ' ' ∨ c = '=' ∨ c = ' ' := by simpa using inEquals
      rcases isEqualsOrBlank with rfl | rfl | rfl <;> simpa using mem_commentMarks isMark
    · exact continues.unmarked c (by simp [joinPieces, inFirst]) isMark
  have noneBefore : '=' ∉ key.toList ++ [' '] := by
    intro mem
    exact continues.noEquals (by simpa using Or.inl mem)
  have noneBehind : '=' ∉ ' ' :: first ++ ['\\'] := by
    intro mem
    exact continues.noEquals (by simpa using Or.inr mem)
  have leadsBefore : Path.pieces (key.toList ++ [' ']) ≠ [] := by
    rw [Path.pieces_append_blanks Text.isBlank_of_mem_space]
    exact leads
  have value : Text.trim (' ' :: first ++ ['\\']) = Text.trimStart first ++ ['\\'] := by
    have ended := Text.trim_append_cons (' ' :: first) (rfl : Text.isBlank '\\' = false) []
    exact ended
  have split := splitEntry_of_equals equals noneBefore noneBehind leadsBefore
  rw [← openLine_eq, Text.trim_append_blanks _ Text.isBlank_of_mem_space, value] at split
  refine ⟨?_, ?_, ?_⟩
  · intro _
    rw [whole]
    exact header?_eq_none List.getLast?_concat rfl (by decide)
  · rw [whole, ne_eq, Text.trim_eq_nil_iff]
    intro allBlank
    cases allBlank '=' (by simp [openLine_eq])
  · rw [whole, split]

/-- The lines are the block of one entry. Its value lacks the blanks in front of the first piece. -/
theorem stands (continues : options.Continues key first middle last)
    (equals : options.equalsSeparator = true) (multiline : options.multiline = true)
    (leads : Path.pieces key.toList ≠ []) {below : List (List Char)}
    (cutOff : last = none → below = []) :
    (Block.entry (openLine key first) (moreLines middle last) (Text.trim key.toList)
      (joinPieces (Text.trimStart first) middle last)).Stands options below := by
  have unmarked : ∀ c ∈ middle.flatten ++ last.getD [], c ∉ options.commentMarks := by
    intro c mem
    apply continues.unmarked c
    rw [joinPieces, List.append_assoc first]
    exact List.mem_append_right _ (List.mem_append_right _ mem)
  have rest : options.GoesOn (Text.trimStart first ++ ['\\']).dropLast (moreLines middle last)
      (joinPieces (Text.trimStart first) middle last) below := by
    rw [List.dropLast_concat]
    exact goesOn_moreLines unmarked continues.closed cutOff _
  exact .entry (continues.splits equals leads) (.later ⟨multiline, List.getLast?_concat⟩ rest)

end Options.Continues

namespace Reader

variable {reader after : Reader} {lines : List (List Char)}

theorem Step.no_bracket {line : List Char} {entry : Option Entry}
    (step : Step options reader line after entry) (free : ']' ∉ reader.scope) :
    ']' ∉ after.scope := by
  cases step with
  | header name idle on isHeader =>
      have nameFree := no_bracket_of_header? isHeader
      unfold enterScope
      split
      · split
        · exact fun mem => nameFree (List.mem_cons_of_mem _ mem)
        · intro mem
          rcases List.mem_append.mp mem with inScope | inName
          · exact free inScope
          · exact nameFree inName
      · exact nameFree
  | goesOn | ends | blank | begins | whole => exact free

/-- No header brings a closing bracket into the scope, so the scope is a list of names. -/
theorem no_bracket_behind (passed : reader.behind options lines = .ok after)
    (free : ']' ∉ reader.scope) : ']' ∉ after.scope := by
  induction lines generalizing reader with
  | nil =>
      cases passed
      exact free
  | cons line rest ih =>
      rcases exists_of_behind_cons passed with ⟨middle, entry, fed, passedRest⟩
      exact ih passedRest ((step_of_feed fed).no_bracket free)

/-- Lines that leave no value open are read apart from those behind them. -/
theorem read_append {second : List (List Char)} (passed : reader.behind options lines = .ok after)
    (idle : after.pending = none) :
    reader.read options (lines ++ second) =
      ⟨(reader.read options lines).handed ++ (after.read options second).handed,
        (after.read options second).fault⟩ := by
  induction lines generalizing reader with
  | nil =>
      cases passed
      simp [read, finish, idle]
  | cons line rest ih =>
      rcases exists_of_behind_cons passed with ⟨middle, entry, fed, passedRest⟩
      simp only [List.cons_append, read, fed, ih passedRest, List.append_assoc]

end Reader

/-- The entry of joined pieces under a scope, with a number of lines above. -/
def joinedEntry (options : Options) (scope : List Char) (above : Nat) (key : String)
    (first : List Char) (middle : List (List Char)) (last : Option (List Char)) : Entry :=
  let value := Text.trim (joinPieces first middle last)
  { key := .ofList (qualify scope (Text.trim key.toList))
    value := .ofList (if options.stripQuotes then Text.unquote value else value)
    line := above + 1
    content := .ofList (openLine key first) }

theorem entry_eq_joinedEntry (scope : List Char) (above : Nat) :
    Continuation.entry options ⟨qualify scope (Text.trim key.toList),
      joinPieces (Text.trimStart first) middle last, above + 1, openLine key first⟩ =
      joinedEntry options scope above key first middle last := by
  have value : Text.trim (joinPieces (Text.trimStart first) middle last) =
      Text.trim (joinPieces first middle last) := by
    simp only [joinPieces, List.append_assoc, Text.trim_trimStart_append]
  rw [Continuation.entry, value, joinedEntry]

theorem Options.Continues.read_eq (continues : options.Continues key first middle last)
    (equals : options.equalsSeparator = true) (multiline : options.multiline = true)
    (leads : Path.pieces key.toList ≠ []) {below : List (List Char)}
    (cutOff : last = none → below = []) {reader : Reader} (idle : reader.pending = none) :
    reader.read options (openLine key first :: moreLines middle last ++ below) =
      let rest := Reader.read options
        ⟨reader.scope, none, reader.line + 1 + (moreLines middle last).length⟩ below
      ⟨⟨reader.scope, joinedEntry options reader.scope reader.line key first middle last⟩ ::
        rest.handed, rest.fault⟩ := by
  have block := Reader.read_of_stands idle (continues.stands equals multiline leads cutOff)
  rw [Block.lines, Block.entry?, entry_eq_joinedEntry] at block
  rw [block]
  simp [Block.leave, Nat.add_assoc, Nat.add_comm 1]

/-- The lines of a key and of the pieces of its value, met where no value is open, hand out one
entry: its path reads as the names of the section and then those of the key, and its value is made
of the pieces one behind the other. Whatever the pieces look like, the lines below are read under
the same section, with no value open. -/
theorem loadInto_continued (equals : options.equalsSeparator = true)
    (multiline : options.multiline = true) {name : String} {more : List String}
    (named : Path.tokenize key = .ok ((name :: more).map Segment.key))
    (continues : options.Continues key first middle last) {text : String}
    {above below : List (List Char)}
    (lines : Text.lines text.toList =
      above ++ (openLine key first :: moreLines middle last ++ below))
    (cutOff : last = none → below = []) {reader : Reader}
    (passed : Reader.behind options {} above = .ok reader) (idle : reader.pending = none) :
    ∃ (names : List String) (entry : Entry) (rest : Reading),
      entry = joinedEntry options reader.scope above.length key first middle last ∧
      Path.tokenize (.ofList reader.scope) = .ok (names.map Segment.key) ∧
      Path.tokenize entry.key = .ok ((names ++ name :: more).map Segment.key) ∧
      rest = Reader.read options
        ⟨reader.scope, none, above.length + (openLine key first :: moreLines middle last).length⟩
        below ∧
      ∀ dictionary, loadInto options text dictionary =
        writeAll rest.fault 0 dictionary
          ((Reader.read options {} above).handed.map Placed.entry ++
            entry :: rest.handed.map Placed.entry) := by
  have accepted : options.validate = .ok () := by simp [Options.validate, equals]
  have leads : Path.pieces key.toList ≠ [] := by
    rw [ne_eq, ← Path.segments_eq_nil_iff named]
    simp
  have scopeRead := Path.tokenize_of_no_bracket
    (Reader.no_bracket_behind passed (by simp : ']' ∉ ([] : List Char)))
  have number : reader.line = above.length := by
    have counted := Reader.line_behind passed
    simpa using counted
  refine ⟨_, _, _, rfl, scopeRead, ?_, rfl, ?_⟩
  · rw [joinedEntry, tokenize_qualify_eq_ok_iff]
    exact ⟨_, _, scopeRead, Path.tokenize_trim_eq_ok_iff.mpr named, List.map_append⟩
  · intro dictionary
    rw [loadInto_eq_writeOnto accepted, Reading.ofText, lines, Reader.read_append passed idle,
      continues.read_eq equals multiline leads cutOff idle, number]
    simp [Reading.writeOnto, Nat.add_assoc, Nat.add_comm 1]

/-- A header and an equals sign in the middle of a quoted value are part of it, and the line below
is a line of the same section. -/
theorem loadInto_continued_header :
    ∃ (options : Options) (entry : Entry), options.sections = true ∧ options.multiline = true ∧
      options.Continues "a. b" "\"x".toList ["[t] ".toList] (some " = y\" ".toList) ∧
      Path.tokenize entry.key = .ok [.key "s", .key "a", .key "b"] ∧
      entry.value = "x[t]  = y" ∧
      ∀ dictionary, loadInto options "[s]\na. b = \"x\\\n[t] \\\n = y\" \nc = 1" dictionary =
        writeAll none 0 dictionary [entry, ⟨"s.c", "1", 5, "c = 1"⟩] := by
  have continues : Options.Continues { Options.ini with multiline := true } "a. b" "\"x".toList
      ["[t] ".toList] (some " = y\" ".toList) :=
    ⟨by decide, by simp [joinPieces, Options.commentMarks, Options.ini], by decide⟩
  have lines : Text.lines "[s]\na. b = \"x\\\n[t] \\\n = y\" \nc = 1".toList =
      ["[s]".toList] ++ (openLine "a. b" "\"x".toList ::
        moreLines ["[t] ".toList] (some " = y\" ".toList) ++ ["c = 1".toList]) := by
    decide
  have named : Path.tokenize "a. b" = .ok (["a", "b"].map Segment.key) := by decide
  rcases @loadInto_continued { Options.ini with multiline := true } _ _ _ _ rfl rfl _ _ named
    continues _ _ _ lines (by simp) ⟨['s'], none, 1⟩ rfl rfl with
    ⟨names, entry, rest, rfl, scopeRead, keyRead, rfl, loaded⟩
  have scope : names.map Segment.key = [.key "s"] :=
    Except.ok.inj (scopeRead.symm.trans (by decide))
  rw [List.map_append, scope] at keyRead
  exact ⟨_, _, rfl, rfl, continues, keyRead, by decide, loaded⟩

end ConfigTree.KeyValue
