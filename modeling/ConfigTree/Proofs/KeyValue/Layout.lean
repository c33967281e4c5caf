import ConfigTree.KeyValue.Line

/-!
# The layout of a text

What key-value text consists of, said without a reader: from top to bottom, its
lines form blocks. A block is a blank line, a header, or an entry with all lines
on which its value goes on, whatever these look like. A line that should begin
an entry and cannot be split ends the layout. The rules leave no choice, so
every text has exactly one layout.
-/

namespace ConfigTree.KeyValue

/-- What a line says in front of its comment. -/
def Options.uncommented (options : Options) (line : List Char) : List Char :=
  stripComment options.commentMarks line

/-- A line that is neither blank nor a header, and what comes of splitting it. -/
structure Options.Splits (options : Options) (line : List Char)
    (parts : Except LineFault (List Char × List Char)) : Prop where
  noHeader : options.sections = true → header? (options.uncommented line) = none
  filled : Text.trim (options.uncommented line) ≠ []
  split : splitEntry options (Text.trim (options.uncommented line)) = parts

/-- A value goes on behind a line like this. -/
def Options.LeavesOpen (options : Options) (line : List Char) : Prop :=
  (Text.trimEnd (options.uncommented line)).getLast? = some '\\'

/-- `options.GoesOn value more whole below` means that `value` goes on in the lines `more` and is
`whole` behind them, where `below` are the lines behind these. Only the end of the text can leave a
value open. -/
inductive Options.GoesOn (options : Options) :
    List Char → List (List Char) → List Char → List (List Char) → Prop where
  | cutOff {value : List Char} : options.GoesOn value [] value []
  | ends {value line : List Char} {below : List (List Char)}
      (closed : ¬options.LeavesOpen line) :
      options.GoesOn value [line] (value ++ options.uncommented line) below
  | goesOn {value line whole : List Char} {more below : List (List Char)}
      (leavesOpen : options.LeavesOpen line)
      (rest : options.GoesOn (value ++ (Text.trimEnd (options.uncommented line)).dropLast) more
        whole below) :
      options.GoesOn value (line :: more) whole below

/-- `options.Holds value more whole below` means that an entry with `value` on its first line has
the value `whole`, which goes on in the lines `more` if `value` is open. -/
inductive Options.Holds (options : Options) :
    List Char → List (List Char) → List Char → List (List Char) → Prop where
  | atOnce {value : List Char} {below : List (List Char)}
      (closed : ¬(options.multiline = true ∧ value.getLast? = some '\\')) :
      options.Holds value [] value below
  | later {value whole : List Char} {more below : List (List Char)}
      (leavesOpen : options.multiline = true ∧ value.getLast? = some '\\')
      (rest : options.GoesOn value.dropLast more whole below) : options.Holds value more whole below

/-- What stands on a line, or on several lines if a value goes on. -/
inductive Block where
  /-- A line that says nothing. -/
  | blank (line : List Char)
  /-- A header with the name in it. -/
  | header (line name : List Char)
  /-- An entry: the line on which it begins, the lines on which it goes on, its own key and its
  value. -/
  | entry (line : List Char) (more : List (List Char)) (key value : List Char)

namespace Block

/-- The lines of a block. -/
def lines : Block → List (List Char)
  | blank line => [line]
  | header line _ => [line]
  | entry line more _ _ => line :: more

theorem length_lines_pos (block : Block) : 0 < block.lines.length := by
  cases block <;> simp [lines]

/-- `block.Stands options below` means that the block can stand above the lines `below`. -/
inductive Stands (options : Options) : Block → List (List Char) → Prop where
  | blank {line : List Char} {below : List (List Char)}
      (noHeader : options.sections = true → header? (options.uncommented line) = none)
      (empty : Text.trim (options.uncommented line) = []) : Stands options (.blank line) below
  | header {line name : List Char} {below : List (List Char)} (on : options.sections = true)
      (isHeader : header? (options.uncommented line) = some name) :
      Stands options (.header line name) below
  | entry {line key value whole : List Char} {more below : List (List Char)}
      (splits : options.Splits line (.ok (key, value)))
      (holds : options.Holds value more whole below) :
      Stands options (.entry line more key whole) below

end Block

/-- `Layout options lines blocks ending` means that `lines` consist of `blocks`, and of a line
behind them that cannot be split if `ending` has one. -/
inductive Layout (options : Options) :
    List (List Char) → List Block → Option (List Char × LineFault) → Prop where
  | done : Layout options [] [] none
  | faulty {line : List Char} {below : List (List Char)} {lineFault : LineFault}
      (splits : options.Splits line (.error lineFault)) :
      Layout options (line :: below) [] (some (line, lineFault))
  | block {block : Block} {below : List (List Char)} {blocks : List Block}
      {ending : Option (List Char × LineFault)} (stands : block.Stands options below)
      (layout : Layout options below blocks ending) :
      Layout options (block.lines ++ below) (block :: blocks) ending

theorem exists_goesOn (options : Options) (value : List Char) (lines : List (List Char)) :
    ∃ more below whole, lines = more ++ below ∧ options.GoesOn value more whole below := by
  induction lines generalizing value with
  | nil => exact ⟨[], [], value, rfl, .cutOff⟩
  | cons line below ih =>
      by_cases leavesOpen : options.LeavesOpen line
      · rcases ih (value ++ (Text.trimEnd (options.uncommented line)).dropLast) with
          ⟨more, behind, whole, rfl, rest⟩
        exact ⟨line :: more, behind, whole, rfl, .goesOn leavesOpen rest⟩
      · exact ⟨[line], below, _, rfl, .ends leavesOpen⟩

theorem exists_holds (options : Options) (value : List Char) (lines : List (List Char)) :
    ∃ more below whole, lines = more ++ below ∧ options.Holds value more whole below := by
  by_cases leavesOpen : options.multiline = true ∧ value.getLast? = some '\\'
  · rcases exists_goesOn options value.dropLast lines with ⟨more, below, whole, split, rest⟩
    exact ⟨more, below, whole, split, .later leavesOpen rest⟩
  · exact ⟨[], lines, value, rfl, .atOnce leavesOpen⟩

/-- A line begins a block, or it cannot be split. -/
theorem exists_stands (options : Options) (line : List Char) (below : List (List Char)) :
    (∃ block behind, line :: below = Block.lines block ++ behind ∧ block.Stands options behind) ∨
      ∃ lineFault, options.Splits line (.error lineFault) := by
  by_cases isHeader : options.sections = true ∧
      ∃ name, header? (options.uncommented line) = some name
  · rcases isHeader with ⟨on, name, found⟩
    exact .inl ⟨.header line name, below, rfl, .header on found⟩
  · have noHeader : options.sections = true → header? (options.uncommented line) = none := by
      intro on
      cases found : header? (options.uncommented line) with
      | none => rfl
      | some name => exact absurd ⟨on, name, found⟩ isHeader
    by_cases empty : Text.trim (options.uncommented line) = []
    · exact .inl ⟨.blank line, below, rfl, .blank noHeader empty⟩
    · cases split : splitEntry options (Text.trim (options.uncommented line)) with
      | error lineFault => exact .inr ⟨lineFault, noHeader, empty, split⟩
      | ok parts =>
          rcases parts with ⟨key, value⟩
          rcases exists_holds options value below with ⟨more, behind, whole, rfl, holds⟩
          exact .inl ⟨.entry line more key whole, behind, rfl,
            .entry ⟨noHeader, empty, split⟩ holds⟩

theorem exists_layout (options : Options) (lines : List (List Char)) :
    ∃ blocks ending, Layout options lines blocks ending := by
  -- A block has at least one line, so fewer lines are behind it.
  induction length : lines.length using Nat.strongRecOn generalizing lines with
  | ind bound ih =>
      cases lines with
      | nil => exact ⟨[], none, .done⟩
      | cons line below =>
          rcases exists_stands options line below with
            ⟨block, behind, split, stands⟩ | ⟨lineFault, splits⟩
          · have shorter : behind.length < bound := by
              have filled := block.length_lines_pos
              rw [← length, split, List.length_append]
              omega
            rcases ih behind.length shorter behind rfl with ⟨blocks, ending, layout⟩
            exact ⟨block :: blocks, ending, split ▸ .block stands layout⟩
          · exact ⟨[], _, .faulty splits⟩

theorem Options.GoesOn.unique {options : Options} {value whole whole' : List Char}
    {more more' below below' : List (List Char)} (rest : options.GoesOn value more whole below)
    (rest' : options.GoesOn value more' whole' below') (same : more ++ below = more' ++ below') :
    more = more' ∧ whole = whole' ∧ below = below' := by
  induction rest generalizing more' whole' below' with
  | cutOff =>
      cases rest' with
      | cutOff => exact ⟨rfl, rfl, rfl⟩
      | ends closed => simp at same
      | goesOn leavesOpen rest' => simp at same
  | ends closed =>
      cases rest' with
      | cutOff => simp at same
      | ends closed' =>
          simp only [List.singleton_append, List.cons.injEq] at same
          rcases same with ⟨rfl, rfl⟩
          exact ⟨rfl, rfl, rfl⟩
      | goesOn leavesOpen rest' =>
          simp only [List.cons_append, List.cons.injEq] at same
          exact absurd (same.1 ▸ leavesOpen) closed
  | goesOn leavesOpen rest ih =>
      cases rest' with
      | cutOff => simp at same
      | ends closed =>
          simp only [List.cons_append, List.cons.injEq] at same
          exact absurd (same.1 ▸ leavesOpen) closed
      | goesOn leavesOpen' rest' =>
          simp only [List.cons_append, List.cons.injEq] at same
          rcases same with ⟨rfl, same⟩
          rcases ih rest' same with ⟨rfl, rfl, rfl⟩
          exact ⟨rfl, rfl, rfl⟩

theorem Options.Holds.unique {options : Options} {value whole whole' : List Char}
    {more more' below below' : List (List Char)} (holds : options.Holds value more whole below)
    (holds' : options.Holds value more' whole' below') (same : more ++ below = more' ++ below') :
    more = more' ∧ whole = whole' ∧ below = below' := by
  cases holds with
  | atOnce closed =>
      cases holds' with
      | atOnce closed' => exact ⟨rfl, rfl, same⟩
      | later leavesOpen rest => exact absurd leavesOpen closed
  | later leavesOpen rest =>
      cases holds' with
      | atOnce closed => exact absurd leavesOpen closed
      | later leavesOpen' rest' => exact rest.unique rest' same

theorem Block.Stands.unique {options : Options} {block block' : Block}
    {below below' : List (List Char)} (stands : block.Stands options below)
    (stands' : block'.Stands options below')
    (same : block.lines ++ below = block'.lines ++ below') :
    block = block' ∧ below = below' := by
  cases stands with
  | blank noHeader empty =>
      cases stands' with
      | blank noHeader' empty' => simpa [lines] using same
      | header on isHeader =>
          cases same
          simp [noHeader on] at isHeader
      | entry splits holds =>
          cases same
          exact absurd empty splits.filled
  | header on isHeader =>
      cases stands' with
      | blank noHeader empty =>
          cases same
          simp [noHeader on] at isHeader
      | header on' isHeader' =>
          cases same
          cases isHeader.symm.trans isHeader'
          exact ⟨rfl, rfl⟩
      | entry splits holds =>
          cases same
          simp [splits.noHeader on] at isHeader
  | entry splits holds =>
      cases stands' with
      | blank noHeader empty =>
          cases same
          exact absurd empty splits.filled
      | header on isHeader =>
          cases same
          simp [splits.noHeader on] at isHeader
      | entry splits' holds' =>
          simp only [lines, List.cons_append, List.cons.injEq] at same
          rcases same with ⟨rfl, same⟩
          cases splits.split.symm.trans splits'.split
          rcases holds.unique holds' same with ⟨rfl, rfl, rfl⟩
          exact ⟨rfl, rfl⟩

theorem Block.Stands.not_splits {options : Options} {block : Block} {line : List Char}
    {below below' : List (List Char)} {lineFault : LineFault} (stands : block.Stands options below)
    (splits : options.Splits line (.error lineFault)) : block.lines ++ below ≠ line :: below' := by
  intro same
  cases stands with
  | blank noHeader empty =>
      cases same
      exact splits.filled empty
  | header on isHeader =>
      cases same
      simp [splits.noHeader on] at isHeader
  | entry splits' holds =>
      simp only [lines, List.cons_append, List.cons.injEq] at same
      rcases same with ⟨rfl, _⟩
      cases splits.split.symm.trans splits'.split

theorem Block.lines_append_ne_nil (block : Block) (below : List (List Char)) :
    block.lines ++ below ≠ [] := by
  cases block <;> simp [lines]

theorem Layout.unique {options : Options} {lines : List (List Char)} {blocks blocks' : List Block}
    {ending ending' : Option (List Char × LineFault)} (layout : Layout options lines blocks ending)
    (layout' : Layout options lines blocks' ending') : blocks = blocks' ∧ ending = ending' := by
  -- The lines of the second layout get a name of their own: two joined lists do not unify.
  induction layout generalizing blocks' ending' with
  | done =>
      generalize written : ([] : List (List Char)) = lines at layout'
      cases layout' with
      | done => exact ⟨rfl, rfl⟩
      | faulty splits => cases written
      | @block block below _ _ stands layout' =>
          exact absurd written.symm (block.lines_append_ne_nil below)
  | @faulty line below lineFault splits =>
      generalize written : line :: below = lines at layout'
      cases layout' with
      | done => cases written
      | faulty splits' =>
          cases written
          cases splits.split.symm.trans splits'.split
          exact ⟨rfl, rfl⟩
      | block stands layout' => exact absurd written.symm (stands.not_splits splits)
  | @block block below blocks ending stands layout ih =>
      generalize written : block.lines ++ below = lines at layout'
      cases layout' with
      | done => exact absurd written (block.lines_append_ne_nil below)
      | faulty splits => exact absurd written (stands.not_splits splits)
      | block stands' layout' =>
          rcases stands.unique stands' written with ⟨rfl, rfl⟩
          rcases ih layout' with ⟨rfl, rfl⟩
          exact ⟨rfl, rfl⟩

end ConfigTree.KeyValue
