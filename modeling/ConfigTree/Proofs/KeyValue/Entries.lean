import ConfigTree.Proofs.KeyValue.Layout
import ConfigTree.Proofs.KeyValue.Reading

/-!
# The entries of a layout

A block hands out at most one entry, which depends on the scope that the blocks
above have left and on the number of their lines. The reader hands out the same
entries: it is in the middle of a value while it goes through a block, and in
none between blocks.
-/

namespace ConfigTree.KeyValue

namespace Block

/-- The scope behind a block. -/
def leave (scope : List Char) : Block → List Char
  | header _ name => enterScope scope name
  | blank _ | entry .. => scope

/-- The entry that a block hands out under a scope and behind a number of lines. -/
def entry? (options : Options) (scope : List Char) (above : Nat) : Block → Option Entry
  | entry line _ key value =>
    some (Continuation.entry options ⟨qualify scope key, value, above + 1, line⟩)
  | blank _ | header .. => none

end Block

/-- The entries that blocks hand out in order, under a scope and behind a number of lines. -/
def placed (options : Options) (scope : List Char) (above : Nat) : List Block → List Placed
  | [] => []
  | block :: blocks =>
    (block.entry? options scope above).toList.map (Placed.mk scope) ++
      placed options (block.leave scope) (above + block.lines.length) blocks

/-- The number of lines of blocks. -/
def height (blocks : List Block) : Nat :=
  (blocks.flatMap Block.lines).length

@[simp]
theorem height_nil : height [] = 0 := rfl

@[simp]
theorem height_cons (block : Block) (blocks : List Block) :
    height (block :: blocks) = block.lines.length + height blocks := by
  simp [height]

/-- The scope behind blocks. -/
def scopeBehind (scope : List Char) (blocks : List Block) : List Char :=
  blocks.foldl Block.leave scope

theorem placed_append (options : Options) (scope : List Char) (above : Nat)
    (before behind : List Block) :
    placed options scope above (before ++ behind) =
      placed options scope above before ++
        placed options (scopeBehind scope before) (above + height before) behind := by
  induction before generalizing scope above with
  | nil => rfl
  | cons block before ih =>
      simp only [List.cons_append, placed, ih, List.append_assoc, scopeBehind, List.foldl_cons,
        height_cons, Nat.add_assoc]

/-- The entries of blocks that stand at the top of a text. -/
def entriesOf (options : Options) (blocks : List Block) : List Entry :=
  (placed options [] 0 blocks).map Placed.entry

/-- What an entry is where the blocks above it are known. -/
theorem entriesOf_append_entry (options : Options) (before behind : List Block)
    (line : List Char) (more : List (List Char)) (key value : List Char) :
    ∃ later, entriesOf options (before ++ .entry line more key value :: behind) =
      entriesOf options before ++
        Continuation.entry options
          ⟨qualify (scopeBehind [] before) key, value, height before + 1, line⟩ :: later := by
  refine ⟨(placed options (scopeBehind [] before) (height before + (more.length + 1)) behind).map
    Placed.entry, ?_⟩
  rw [entriesOf, placed_append, List.map_append, placed]
  simp only [Block.entry?, Option.toList_some, List.map_cons, List.map_nil, List.cons_append,
    List.nil_append, Nat.zero_add]
  rfl

theorem exists_block_of_mem_placed {options : Options} {scope : List Char} {above : Nat}
    {blocks : List Block} {entry : Placed} (mem : entry ∈ placed options scope above blocks) :
    ∃ before line more key value behind,
      blocks = before ++ .entry line more key value :: behind ∧
      entry.entry = Continuation.entry options
        ⟨qualify (scopeBehind scope before) key, value, above + height before + 1, line⟩ := by
  induction blocks generalizing scope above with
  | nil => simp [placed] at mem
  | cons block blocks ih =>
      simp only [placed, List.mem_append, List.mem_map, Option.mem_toList] at mem
      rcases mem with ⟨own, handed, rfl⟩ | later
      · cases block with
        | blank line => cases handed
        | header line name => cases handed
        | entry line more key value =>
            cases handed
            exact ⟨[], line, more, key, value, blocks, rfl, rfl⟩
      · rcases ih later with ⟨before, line, more, key, value, behind, rfl, isEntry⟩
        refine ⟨block :: before, line, more, key, value, behind, rfl, ?_⟩
        rw [isEntry, scopeBehind, scopeBehind, List.foldl_cons, height_cons, Nat.add_assoc above]

/-- The lines of a text are those of its blocks and, if there is one, the line that cannot be split
with all below. -/
theorem Layout.exists_lines_eq {options : Options} {lines : List (List Char)}
    {blocks : List Block} {ending : Option (List Char × LineFault)}
    (layout : Layout options lines blocks ending) :
    ∃ behind, lines = blocks.flatMap Block.lines ++ behind ∧ (ending = none → behind = []) ∧
      ∀ line lineFault, ending = some (line, lineFault) →
        options.Splits line (.error lineFault) ∧ behind.head? = some line := by
  induction layout with
  | done => exact ⟨[], rfl, fun _ => rfl, by simp⟩
  | @faulty line below lineFault splits =>
      refine ⟨line :: below, rfl, by simp, ?_⟩
      rintro _ _ ⟨⟩
      exact ⟨splits, rfl⟩
  | block stands layout ih =>
      rcases ih with ⟨behind, rfl, complete, faulty⟩
      exact ⟨behind, by simp, complete, faulty⟩

theorem Layout.getElem?_of_entry {options : Options} {lines : List (List Char)}
    {above below : List Block} {line key value : List Char} {more : List (List Char)}
    {ending : Option (List Char × LineFault)}
    (layout : Layout options lines (above ++ .entry line more key value :: below) ending) :
    lines[height above]? = some line := by
  rcases layout.exists_lines_eq with ⟨behind, rfl, _⟩
  simp [height, Block.lines]

theorem Layout.getElem?_of_ending {options : Options} {lines : List (List Char)}
    {blocks : List Block} {line : List Char} {lineFault : LineFault}
    (layout : Layout options lines blocks (some (line, lineFault))) :
    options.Splits line (.error lineFault) ∧ lines[height blocks]? = some line := by
  rcases layout.exists_lines_eq with ⟨behind, rfl, _, faulty⟩
  rcases faulty line lineFault rfl with ⟨splits, first⟩
  refine ⟨splits, ?_⟩
  rw [height, List.getElem?_append_right (Nat.le_refl _), Nat.sub_self, ← List.head?_eq_getElem?,
    first]

/-- What a layout comes to. -/
def readingOf (options : Options) (scope : List Char) (above : Nat) (blocks : List Block)
    (ending : Option (List Char × LineFault)) : Reading where
  handed := placed options scope above blocks
  fault := ending.map fun faulty =>
    faulty.2.fault (above + height blocks + 1) (.ofList faulty.1)

namespace Reader

theorem read_of_step {options : Options} {reader after : Reader} {line : List Char}
    {entry : Option Entry} (step : Step options reader line after entry)
    (below : List (List Char)) :
    reader.read options (line :: below) =
      ⟨entry.toList.map (Placed.mk after.scope) ++ (after.read options below).handed,
        (after.read options below).fault⟩ := by
  simp only [read, step.feed_eq]

/-- In the middle of a value, the reader takes the lines on which it goes on and hands out the
entry. -/
theorem read_of_goesOn {options : Options} {reader : Reader} {continuation : Continuation}
    {whole : List Char} {more below : List (List Char)}
    (waiting : reader.pending = some continuation)
    (rest : options.GoesOn continuation.value more whole below) :
    reader.read options (more ++ below) =
      ⟨⟨reader.scope, Continuation.entry options { continuation with value := whole }⟩ ::
          (read options ⟨reader.scope, none, reader.line + more.length⟩ below).handed,
        (read options ⟨reader.scope, none, reader.line + more.length⟩ below).fault⟩ := by
  -- What has been read of the value stands in the continuation, so it changes from line to line.
  generalize started : continuation.value = value at rest
  induction rest generalizing reader continuation with
  | cutOff =>
      subst started
      simp [read, finish, waiting]
  | ends closed =>
      subst started
      rw [List.singleton_append, read_of_step (.ends continuation waiting closed)]
      rfl
  | @goesOn value line whole more below leavesOpen rest ih =>
      subst started
      rw [List.cons_append, read_of_step (.goesOn continuation waiting leavesOpen)]
      rw [ih rfl rfl]
      simp [Nat.add_comm, Nat.add_left_comm]

theorem read_of_stands {options : Options} {reader : Reader} {block : Block}
    {below : List (List Char)} (idle : reader.pending = none)
    (stands : block.Stands options below) :
    reader.read options (block.lines ++ below) =
      ⟨(block.entry? options reader.scope reader.line).toList.map (Placed.mk reader.scope) ++
          (read options ⟨block.leave reader.scope, none, reader.line + block.lines.length⟩
            below).handed,
        (read options ⟨block.leave reader.scope, none, reader.line + block.lines.length⟩
          below).fault⟩ := by
  cases stands with
  | blank noHeader empty =>
      exact read_of_step (.blank idle noHeader empty) below
  | header on isHeader =>
      exact read_of_step (.header _ idle on isHeader) below
  | entry splits holds =>
      cases holds with
      | atOnce closed =>
          exact read_of_step (.whole _ _ idle splits.noHeader splits.filled splits.split
            fun multiline last => closed ⟨multiline, last⟩) below
      | later leavesOpen rest =>
          rw [Block.lines, List.cons_append, read_of_step
            (.begins _ _ idle splits.noHeader splits.filled splits.split leavesOpen.1 leavesOpen.2)]
          rw [read_of_goesOn rfl rest]
          simp [Block.entry?, Block.leave, Nat.add_comm, Nat.add_left_comm]

theorem read_of_layout {options : Options} {reader : Reader} {lines : List (List Char)}
    {blocks : List Block} {ending : Option (List Char × LineFault)}
    (idle : reader.pending = none) (layout : Layout options lines blocks ending) :
    reader.read options lines = readingOf options reader.scope reader.line blocks ending := by
  induction layout generalizing reader with
  | done => simp [read, finish, idle, readingOf, placed]
  | faulty splits =>
      simp [read, feed_of_splitEntry_eq_error idle splits.noHeader splits.filled splits.split,
        readingOf, placed]
  | block stands layout ih =>
      rw [read_of_stands idle stands, ih rfl]
      simp [readingOf, placed, Nat.add_assoc]

end Reader

end ConfigTree.KeyValue
