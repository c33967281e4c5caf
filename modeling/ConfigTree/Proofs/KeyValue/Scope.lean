import ConfigTree.Proofs.KeyValue.Line
import ConfigTree.Proofs.KeyValue.OrderedWrites
import ConfigTree.Proofs.KeyValue.OwnKey
import ConfigTree.Proofs.Path.Names

/-!
# The scope as a list of segments

Between headers, the reader keeps the scope as a text, which a header replaces
or makes longer. Read as a path, this text is always a list of names, and the
headers act on the list as they say: an absolute name replaces it, a relative
one is added at its end. What dots and blanks there are in the names makes no
difference. Keys are therefore read as behind a list of names, and whether the
path of an entry can be read depends on its own key alone.
-/

namespace ConfigTree.KeyValue

/-- The segments of the scope behind a block, where those in front of it are given. -/
def Block.leaveSegments (segments : List Segment) : Block → Except Fault (List Segment)
  | header _ ('.' :: rest) => do return segments ++ (← Path.tokenize (.ofList rest))
  | header _ name => Path.tokenize (.ofList name)
  | blank _ | entry .. => .ok segments

/-- The segments of the scope behind blocks at the top of a text. -/
def segmentsBehind (blocks : List Block) : Except Fault (List Segment) :=
  blocks.foldlM Block.leaveSegments []

theorem exists_tokenize_of_header? {line name : List Char} (found : header? line = some name) :
    ∃ names : List String, Path.tokenize (.ofList name) = .ok (names.map Segment.key) :=
  ⟨_, Path.tokenize_of_no_bracket (no_bracket_of_header? found)⟩

theorem enterScope_relative (scope rest : List Char) :
    enterScope scope ('.' :: rest) = qualify scope rest := rfl

theorem enterScope_absolute (scope : List Char) {name : List Char}
    (absolute : ∀ rest, name ≠ '.' :: rest) : enterScope scope name = name := by
  unfold enterScope
  split
  · next rest => exact absurd rfl (absolute rest)
  · rfl

theorem leaveSegments_absolute (segments : List Segment) (line : List Char) {name : List Char}
    (absolute : ∀ rest, name ≠ '.' :: rest) :
    Block.leaveSegments segments (.header line name) = Path.tokenize (.ofList name) := by
  rw [Block.leaveSegments]
  exact absolute

/-- A block acts on the names of the scope as it acts on its text. -/
theorem Block.Stands.leaveSegments {options : Options} {block : Block} {below : List (List Char)}
    (stands : block.Stands options below) {scope : List Char} {names : List String}
    (read : Path.tokenize (.ofList scope) = .ok (names.map Segment.key)) :
    ∃ after : List String,
      block.leaveSegments (names.map Segment.key) = .ok (after.map Segment.key) ∧
      Path.tokenize (.ofList (block.leave scope)) = .ok (after.map Segment.key) := by
  cases stands with
  | blank noHeader empty => exact ⟨names, rfl, read⟩
  | entry splits holds => exact ⟨names, rfl, read⟩
  | @header line name below on isHeader =>
      have noBracket := no_bracket_of_header? isHeader
      have nameRead := Path.tokenize_of_no_bracket noBracket
      by_cases relative : ∃ rest, name = '.' :: rest
      · -- Behind the dot there is no bracket either, so this is a list of names as well.
        rcases relative with ⟨rest, rfl⟩
        have restRead := Path.tokenize_of_no_bracket fun bracket =>
          noBracket (List.mem_cons_of_mem _ bracket)
        refine ⟨names ++ (Path.pieces rest).map String.ofList, ?_, ?_⟩
        · rw [Block.leaveSegments, restRead, List.map_append]
          rfl
        · rw [Block.leave, enterScope_relative, tokenize_qualify_eq_ok_iff]
          exact ⟨_, _, read, restRead, List.map_append⟩
      · have absolute : ∀ rest, name ≠ '.' :: rest := fun rest same => relative ⟨rest, same⟩
        refine ⟨(Path.pieces name).map String.ofList, ?_, ?_⟩
        · rw [leaveSegments_absolute _ line absolute, nameRead]
        · rw [Block.leave, enterScope_absolute scope absolute, nameRead]

theorem Layout.stands_of_mem {options : Options} {lines : List (List Char)} {blocks : List Block}
    {ending : Option (List Char × LineFault)} (layout : Layout options lines blocks ending)
    {block : Block} (mem : block ∈ blocks) : ∃ below, block.Stands options below := by
  induction layout with
  | done => cases mem
  | faulty splits => cases mem
  | @block first below blocks ending stands layout ih =>
      rcases List.mem_cons.mp mem with rfl | later
      · exact ⟨below, stands⟩
      · exact ih later

theorem exists_names_behind {options : Options} {blocks : List Block}
    (stand : ∀ block ∈ blocks, ∃ below, block.Stands options below) {scope : List Char}
    {names : List String}
    (read : Path.tokenize (.ofList scope) = .ok (names.map Segment.key)) :
    ∃ after : List String,
      blocks.foldlM Block.leaveSegments (names.map Segment.key) = .ok (after.map Segment.key) ∧
      Path.tokenize (.ofList (scopeBehind scope blocks)) = .ok (after.map Segment.key) := by
  induction blocks generalizing scope names with
  | nil => exact ⟨names, rfl, read⟩
  | cons block blocks ih =>
      rw [List.forall_mem_cons] at stand
      rcases stand with ⟨⟨below, stands⟩, standLater⟩
      rcases stands.leaveSegments read with ⟨middle, left, middleRead⟩
      rcases ih standLater middleRead with ⟨after, behind, afterRead⟩
      refine ⟨after, ?_, afterRead⟩
      rw [List.foldlM_cons, left]
      exact behind

theorem exists_tokenize_qualify_eq_error_iff {scope own : List Char} {names : List String}
    (read : Path.tokenize (.ofList scope) = .ok (names.map Segment.key)) :
    (∃ fault, Path.tokenize (.ofList (qualify scope own)) = .error fault) ↔
      ∃ fault, Path.tokenize (.ofList own) = .error fault := by
  cases ownRead : Path.tokenize (.ofList own) with
  | ok segments =>
      have whole : Path.tokenize (.ofList (qualify scope own)) =
          .ok (names.map Segment.key ++ segments) :=
        tokenize_qualify_eq_ok_iff.mpr ⟨_, _, read, ownRead, rfl⟩
      simp [whole]
  | error fault =>
      cases whole : Path.tokenize (.ofList (qualify scope own)) with
      | error unread => simp
      | ok segments =>
          rcases tokenize_qualify_eq_ok_iff.mp whole with ⟨_, _, _, again, _⟩
          cases ownRead.symm.trans again

/-- Sections are lists of names in front of keys. A header replaces the list by the names in it or,
if its name begins with a dot, adds them to it. Where an entry begins, the list is the one that the
headers above have made, and the entry is set at a path that reads as this list and then the key.
Setting it fails for the syntax of its path exactly if the key cannot be read. -/
theorem entries_behind_names {options : Options} (accepted : options.validate = .ok ())
    (text : String) :
    ∃ blocks ending, Layout options (Text.lines text.toList) blocks ending ∧
      (∃ atEnd, ∀ dictionary, loadInto options text dictionary =
        writeAll atEnd 0 dictionary (entriesOf options blocks)) ∧
      (∀ line name, .header line name ∈ blocks →
        header? (options.uncommented line) = some name ∧
        ∃ names : List String, Path.tokenize (.ofList name) = .ok (names.map Segment.key)) ∧
      ∀ above line more key value below, blocks = above ++ .entry line more key value :: below →
        ∃ (names : List String) (entry : Entry) (later : List Entry),
          segmentsBehind above = .ok (names.map Segment.key) ∧
          entriesOf options blocks = entriesOf options above ++ entry :: later ∧
          (∀ segments, Path.tokenize entry.key = .ok segments ↔
            ∃ own, Path.tokenize (.ofList key) = .ok own ∧
              segments = names.map Segment.key ++ own) ∧
          ∀ dictionary,
            ((∃ refusal, dictionary.set entry.key entry.value = .error refusal ∧
              refusal.family = .pathSyntax) ↔ ∃ fault, Path.tokenize (.ofList key) = .error fault) ∧
            ∀ refusal, dictionary.set entry.key entry.value = .error refusal →
              entry.writeTo dictionary = .error (entry.refused refusal) := by
  rcases exists_layout options (Text.lines text.toList) with ⟨blocks, ending, layout⟩
  refine ⟨blocks, ending, layout, ⟨_, loadInto_eq_writeAll accepted layout⟩, ?_, ?_⟩
  · intro line name header_mem
    rcases layout.stands_of_mem header_mem with ⟨below, stands⟩
    cases stands with
    | header on isHeader => exact ⟨isHeader, exists_tokenize_of_header? isHeader⟩
  · rintro above line more key value below rfl
    have start : Path.tokenize (.ofList []) = .ok (([] : List String).map Segment.key) := by decide
    have standAbove : ∀ block ∈ above, ∃ below, block.Stands options below := by
      intro block block_mem
      exact layout.stands_of_mem (List.mem_append_left _ block_mem)
    rcases exists_names_behind standAbove start with ⟨names, isSegments, read⟩
    rcases entriesOf_append_entry options above below line more key value with ⟨later, split⟩
    refine ⟨names, _, later, isSegments, split, ?_, ?_⟩
    · intro segments
      rw [Continuation.entry, tokenize_qualify_eq_ok_iff]
      constructor
      · rintro ⟨before, own, scopeRead, ownRead, rfl⟩
        cases read.symm.trans scopeRead
        exact ⟨own, ownRead, rfl⟩
      · rintro ⟨own, ownRead, rfl⟩
        exact ⟨_, own, read, ownRead, rfl⟩
    · intro dictionary
      refine ⟨?_, fun refusal failed => writeTo_of_set_eq_error failed⟩
      rw [← exists_tokenize_qualify_eq_error_iff read]
      exact Dictionary.exists_write_pathSyntax_iff

/-- A relative header stands behind the header above it, and a key in it may name a position. -/
theorem entries_behind_names_nested :
    Options.ini.validate = .ok () ∧
      ∃ entry, entriesOf .ini [.header "[a]".toList "a".toList, .header "[. b]".toList ". b".toList,
          .entry "k[0] = 1".toList [] "k[0]".toList "1".toList] = [entry] ∧
        Path.tokenize entry.key = .ok [.key "a", .key "b", .key "k", .index 0] := by
  have accepted : Options.ini.validate = .ok () := rfl
  have lines : Text.lines "[a]\n[. b]\nk[0] = 1".toList =
      ["[a]".toList, "[. b]".toList, "k[0] = 1".toList] := by decide
  have splits : Options.ini.Splits "k[0] = 1".toList (.ok ("k[0]".toList, "1".toList)) :=
    ⟨by decide, by decide, rfl⟩
  have layout : Layout .ini (Text.lines "[a]\n[. b]\nk[0] = 1".toList)
      [.header "[a]".toList "a".toList, .header "[. b]".toList ". b".toList,
        .entry "k[0] = 1".toList [] "k[0]".toList "1".toList] none := by
    rw [lines]
    exact .block (.header rfl (by decide)) (.block (.header rfl (by decide))
      (.block (.entry splits (.atOnce (by decide))) .done))
  rcases entries_behind_names accepted "[a]\n[. b]\nk[0] = 1" with
    ⟨blocks, ending, isLayout, _, _, stand⟩
  rcases isLayout.unique layout with ⟨rfl, rfl⟩
  rcases stand [_, _] _ _ _ _ [] rfl with ⟨names, entry, later, behind, entries, reads, _⟩
  have segments : segmentsBehind [.header "[a]".toList "a".toList,
      .header "[. b]".toList ". b".toList] = .ok [.key "a", .key "b"] := by decide
  rw [segments, Except.ok.injEq] at behind
  have single : later = [] := by
    have count := congrArg List.length entries
    exact List.length_eq_zero_iff.mp (Nat.succ.inj count).symm
  rw [single] at entries
  refine ⟨accepted, entry, entries, ?_⟩
  rw [reads, ← behind]
  exact ⟨[.key "k", .index 0], by decide, rfl⟩

end ConfigTree.KeyValue
