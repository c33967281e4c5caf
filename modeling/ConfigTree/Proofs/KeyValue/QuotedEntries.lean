import ConfigTree.Proofs.Dictionary.ReadBack
import ConfigTree.Proofs.KeyValue.Line
import ConfigTree.Proofs.Text.Lines

/-!
# Entries with quoted values

Quotes keep a value as it is. In a dialect that takes quotes off, a line of a key, an
equals sign and a quoted value goes through all stages unharmed, whatever the other
switches are: it ends in a quote, so it is neither a header nor continued, and blanks at
the ends of the value are inside the quotes. Only the equals sign itself and comment
marks cannot be written. Loading such lines is setting their keys in order.
-/

namespace ConfigTree

namespace Node

/-- Without arrays, every list of names can be written. -/
theorem Addressable.writable {root : Node} (addressable : root.Addressable)
    (keys : List String) : Writable keys (some root) := by
  induction keys generalizing root with
  | nil => exact trivial
  | cons key rest ih =>
      cases addressable with
      | value text => exact ⟨by simp, writable_none rest⟩
      | @object fields names below =>
          refine ⟨by simp, ?_⟩
          cases found : Fields.get? fields key with
          | none =>
              rw [fieldsOf, found]
              exact writable_none rest
          | some child =>
              rw [fieldsOf, found]
              exact ih (below _ (Fields.mem_of_get? found))

end Node

namespace Dictionary

variable {dictionary after : Dictionary} {path path' : String} {keys : List String}

theorem Addressable.exists_set_eq_ok (addressable : dictionary.Addressable)
    (read : Path.tokenize path = .ok (keys.map Segment.key)) (value : String) :
    ∃ after, dictionary.set path value = .ok after := by
  apply exists_write_eq_ok (some value) read
  cases isRoot : dictionary.root with
  | none => exact Node.writable_none keys
  | some root => exact (addressable root isRoot).writable keys

/-- Sets keys to values in order, as long as all can be set. -/
def setPairs (dictionary : Dictionary) (pairs : List (String × String)) : Except Fault Dictionary :=
  pairs.foldlM (fun dictionary pair => dictionary.set pair.1 pair.2) dictionary

/-- Writing at two spellings of a list of names leaves the same dictionary. -/
theorem set_eq_ok_of_spelling (read : Path.tokenize path = .ok (keys.map Segment.key))
    (read' : Path.tokenize path' = .ok (keys.map Segment.key)) {value : String}
    (written : dictionary.set path value = .ok after) : dictionary.set path' value = .ok after := by
  rcases of_write_eq_ok written with ⟨names, namesRead, writable, root, policy⟩
  rcases Path.keys_unique namesRead read
  rcases exists_written (some value) read' writable with ⟨after', written', root', policy'⟩
  have same : after' = after := eq_of_root_eq (root'.trans root.symm) (policy'.trans policy.symm)
  rw [← same]
  exact written'

end Dictionary

namespace KeyValue

/-- A text between double quotes. -/
def inQuotes (value : String) : List Char :=
  '"' :: value.toList ++ ['"']

/-- The line of a key and a quoted value. -/
def quotedLine (entry : String × String) : List Char :=
  entry.1.toList ++ " = ".toList ++ inQuotes entry.2

/-- The key leads somewhere by names, and a quoted line can hold the key and the value. -/
structure Options.Quotable (options : Options) (entry : String × String) : Prop where
  names : ∃ name more, Path.tokenize entry.1 = .ok ((name :: more).map Segment.key)
  free : ∀ c ∈ entry.1.toList ++ entry.2.toList, c ≠ '=' ∧ c ≠ '\n' ∧ c ∉ options.commentMarks

variable {options : Options} {entry : String × String}

@[simp]
theorem getLast?_inQuotes (before : List Char) (value : String) :
    (before ++ inQuotes value).getLast? = some '"' := by
  rw [inQuotes, ← List.append_assoc, List.getLast?_concat]

theorem trim_inQuotes (value : String) : Text.trim (inQuotes value) = inQuotes value := by
  apply Text.trim_eq_self
  · rintro c ⟨⟩
    rfl
  · intro c last
    have isQuote := getLast?_inQuotes [] value
    cases isQuote.symm.trans last
    rfl

theorem unquote_inQuotes (value : String) : Text.unquote (inQuotes value) = value.toList := by
  simp [inQuotes, Text.unquote, Text.isQuote]

theorem quotedLine_eq (entry : String × String) :
    quotedLine entry = (entry.1.toList ++ [' ']) ++ '=' :: ' ' :: inQuotes entry.2 := by
  simp [quotedLine]

theorem mem_quotedLine {c : Char} (mem : c ∈ quotedLine entry) :
    c ∈ entry.1.toList ++ entry.2.toList ∨ c = ' ' ∨ c = '=' ∨ c = '"' := by
  simp only [quotedLine_eq, inQuotes, List.mem_append, List.mem_cons, List.not_mem_nil,
    or_false] at mem ⊢
  tauto

namespace Options.Quotable

theorem isLine (quotable : options.Quotable entry) : Text.IsLine (quotedLine entry) where
  noFeed := by
    intro mem
    rcases mem_quotedLine mem with written | blank | equals | quote
    · exact (quotable.free _ written).2.1 rfl
    · cases blank
    · cases equals
    · cases quote
  noReturn := by
    rw [quotedLine, getLast?_inQuotes]
    decide

theorem uncommented (quotable : options.Quotable entry) :
    options.uncommented (quotedLine entry) = quotedLine entry := by
  apply uncommented_eq_self
  intro c mem isMark
  rcases mem_quotedLine mem with written | rfl | rfl | rfl
  · exact (quotable.free c written).2.2 isMark
  all_goals simpa using mem_commentMarks isMark

theorem splits (quotable : options.Quotable entry) (equals : options.equalsSeparator = true) :
    options.Splits (quotedLine entry) (.ok (Text.trim entry.1.toList, inQuotes entry.2)) := by
  rcases quotable.names with ⟨name, more, read⟩
  have leads : Path.pieces (entry.1.toList ++ [' ']) ≠ [] := by
    rw [Path.pieces_append_blanks Text.isBlank_of_mem_space, ne_eq, ← Path.segments_eq_nil_iff read]
    simp
  have noneBefore : '=' ∉ entry.1.toList ++ [' '] := by
    intro mem
    have inKey : '=' ∈ entry.1.toList := by simpa using mem
    exact (quotable.free '=' (by simp [inKey])).1 rfl
  have noneBehind : '=' ∉ ' ' :: inQuotes entry.2 := by
    intro mem
    have inValue : '=' ∈ entry.2.toList := by simpa [inQuotes] using mem
    exact (quotable.free '=' (by simp [inValue])).1 rfl
  have split := splitEntry_of_equals equals noneBefore noneBehind leads
  have value : Text.trim (' ' :: inQuotes entry.2) = inQuotes entry.2 :=
    (Text.trim_blanks_append Text.isBlank_of_mem_space _).trans (trim_inQuotes entry.2)
  rw [← quotedLine_eq, Text.trim_append_blanks _ Text.isBlank_of_mem_space, value] at split
  refine ⟨?_, ?_, ?_⟩
  · intro _
    rw [quotable.uncommented]
    exact header?_eq_none (getLast?_inQuotes _ _) rfl (by decide)
  · rw [quotable.uncommented, ne_eq, Text.trim_eq_nil_iff]
    intro allBlank
    cases allBlank '=' (by simp [quotedLine_eq])
  · rw [quotable.uncommented, split]

end Options.Quotable

/-- The block of a quoted line. -/
def quotedBlock (entry : String × String) : Block :=
  .entry (quotedLine entry) [] (Text.trim entry.1.toList) (inQuotes entry.2)

theorem layout_quotedLines (equals : options.equalsSeparator = true)
    {entries : List (String × String)} (quotable : ∀ entry ∈ entries, options.Quotable entry) :
    Layout options (entries.map quotedLine) (entries.map quotedBlock) none := by
  induction entries with
  | nil => exact .done
  | cons entry rest ih =>
      rw [List.forall_mem_cons] at quotable
      rcases quotable with ⟨entryQuotable, restQuotable⟩
      have closed : ¬(options.multiline = true ∧ (inQuotes entry.2).getLast? = some '\\') := by
        rintro ⟨_, backslash⟩
        cases (getLast?_inQuotes [] entry.2).symm.trans backslash
      exact .block (.entry (entryQuotable.splits equals) (.atOnce closed)) (ih restQuotable)

/-- The entries of quoted lines are set like their keys and values. -/
theorem exists_setAll_quoted (strips : options.stripQuotes = true)
    {entries : List (String × String)} (quotable : ∀ entry ∈ entries, options.Quotable entry)
    (above : Nat) {dictionary : Dictionary} (addressable : dictionary.Addressable) :
    ∃ final,
      setAll dictionary ((placed options [] above (entries.map quotedBlock)).map Placed.entry) =
        .ok final ∧
      dictionary.setPairs entries = .ok final := by
  induction entries generalizing above dictionary with
  | nil => exact ⟨dictionary, rfl, rfl⟩
  | cons entry rest ih =>
      rw [List.forall_mem_cons] at quotable
      rcases quotable with ⟨⟨⟨name, more, read⟩, _⟩, restQuotable⟩
      rcases addressable.exists_set_eq_ok read entry.2 with ⟨after, written⟩
      rcases ih restQuotable (above + 1) (addressable.of_write written) with ⟨final, all, pairs⟩
      have readTrimmed : Path.tokenize (.ofList (Text.trim entry.1.toList)) =
          .ok ((name :: more).map Segment.key) := Path.tokenize_trim_eq_ok_iff.mpr read
      refine ⟨final, ?_, ?_⟩
      · have handed : (Continuation.entry options ⟨qualify [] (Text.trim entry.1.toList),
            inQuotes entry.2, above + 1, quotedLine entry⟩) =
            ⟨.ofList (Text.trim entry.1.toList), entry.2, above + 1,
              .ofList (quotedLine entry)⟩ := by
          simp [Continuation.entry, qualify, trim_inQuotes, strips, unquote_inQuotes]
        simp only [List.map_cons, quotedBlock, placed, Block.entry?, handed, Option.toList_some,
          List.map_nil, List.cons_append, List.nil_append]
        rw [setAll_cons_eq_ok_iff]
        exact ⟨after, Dictionary.set_eq_ok_of_spelling read readTrimmed written, all⟩
      · rw [Dictionary.setPairs, List.foldlM_cons, written]
        exact pairs

theorem length_placed_quotedBlocks (scope : List Char) (above : Nat)
    (entries : List (String × String)) :
    (placed options scope above (entries.map quotedBlock)).length = entries.length := by
  induction entries generalizing scope above with
  | nil => rfl
  | cons entry rest ih => simp [placed, quotedBlock, Block.entry?, ih]

/-- Loading lines of keys and quoted values, the last with its line feed or without it, sets the
keys to the values in order. -/
theorem load_quotedLines (equals : options.equalsSeparator = true)
    (strips : options.stripQuotes = true) {entries : List (String × String)}
    (quotable : ∀ entry ∈ entries, options.Quotable entry) {text : String}
    (written : text.toList = Text.unlines (entries.map quotedLine) ∨
      text.toList ++ ['\n'] = Text.unlines (entries.map quotedLine)) :
    ∃ dictionary, load options text = .ok dictionary ∧
      loadInto options text .emptyObject = (.ok entries.length, dictionary) ∧
      Dictionary.emptyObject.setPairs entries = .ok dictionary := by
  have areLines : ∀ line ∈ entries.map quotedLine, Text.IsLine line := by
    intro line mem
    rcases List.mem_map.mp mem with ⟨entry, entry_mem, rfl⟩
    exact (quotable entry entry_mem).isLine
  have lines : Text.lines text.toList = entries.map quotedLine := by
    rcases written with ended | cutOff
    · rw [ended, Text.lines_unlines areLines]
    · apply Text.lines_of_concat_feed_eq cutOff areLines
      intro line mem
      rcases List.mem_map.mp mem with ⟨entry, _, rfl⟩
      simp [quotedLine, inQuotes]
  have layout := layout_quotedLines equals quotable
  rw [← lines] at layout
  have accepted : options.validate = .ok () := by simp [Options.validate, equals]
  rcases exists_setAll_quoted strips quotable 0 Dictionary.addressable_emptyObject with
    ⟨final, all, pairs⟩
  have loaded : loadInto options text .emptyObject = (.ok entries.length, final) := by
    rw [loadInto_eq_writeAll accepted layout, writeAll_eq_ok_iff]
    refine ⟨rfl, ?_, all⟩
    rw [entriesOf, List.length_map, length_placed_quotedBlocks, Nat.zero_add]
  refine ⟨final, ?_, loaded, pairs⟩
  rw [load, loaded]

/-- Brackets, a colon, a dollar, a backslash at the end and blanks come back where they would mean
something without quotes. -/
theorem load_quotedLines_marks :
    ∃ options : Options, options.equalsSeparator = true ∧ options.stripQuotes = true ∧
      options.sections = true ∧ options.colonSeparator = true ∧ options.multiline = true ∧
      (∀ entry ∈ [("a .b", "[x]: $y \\"), ("a.c", "  ")], options.Quotable entry) ∧
      ∃ dictionary, load options "a .b = \"[x]: $y \\\"\na.c = \"  \"" = .ok dictionary ∧
        dictionary.root = some (.object [("a", .object [("b", .ofText "[x]: $y \\"),
          ("c", .ofText "  ")])]) := by
  have quotable : ∀ entry ∈ [("a .b", "[x]: $y \\"), ("a.c", "  ")],
      Options.Quotable { Options.ini with multiline := true } entry := by
    intro entry mem
    rw [List.mem_pair] at mem
    rcases mem with rfl | rfl
    · exact ⟨⟨"a", ["b"], by decide⟩, by simp [Options.commentMarks, Options.ini]⟩
    · exact ⟨⟨"a", ["c"], by decide⟩, by simp [Options.commentMarks, Options.ini]⟩
  have written : "a .b = \"[x]: $y \\\"\na.c = \"  \"".toList ++ ['\n'] =
      Text.unlines ([("a .b", "[x]: $y \\"), ("a.c", "  ")].map quotedLine) := by
    decide
  refine ⟨{ Options.ini with multiline := true }, rfl, rfl, rfl, rfl, rfl, quotable, ?_⟩
  rcases load_quotedLines rfl rfl quotable (.inr written) with ⟨dictionary, loaded, _, pairs⟩
  refine ⟨dictionary, loaded, ?_⟩
  have roots : (Dictionary.emptyObject.setPairs
      [("a .b", "[x]: $y \\"), ("a.c", "  ")]).map Dictionary.root =
        .ok (some (.object [("a", .object [("b", .ofText "[x]: $y \\"),
          ("c", .ofText "  ")])])) := by rfl
  rw [pairs] at roots
  exact Except.ok.inj roots

end KeyValue

end ConfigTree
