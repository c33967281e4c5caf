import ConfigTree.Proofs.KeyValue.Entries

/-!
# Loading as writing in order

Loading a text onto a dictionary comes to setting the entries of its layout, one
after the other. The entries do not depend on the dictionary. The first entry
that cannot be set stops the loading, and the line that cannot be split stops it
behind all entries; the tree is then the one that the entries before have left.
Either fault carries the number of a line of the text and the line itself: the
line that cannot be split, or the one on which the entry begins, however many
lines its value goes on for.
-/

namespace ConfigTree.KeyValue

/-- Sets entries in order, as long as all can be set. -/
def setAll (dictionary : Dictionary) (entries : List Entry) : Except Fault Dictionary :=
  entries.foldlM (fun dictionary entry => dictionary.set entry.key entry.value) dictionary

theorem setAll_nil_eq_ok_iff {dictionary final : Dictionary} :
    setAll dictionary [] = .ok final ↔ final = dictionary := by
  simp [setAll, pure, Except.pure, eq_comm]

theorem setAll_cons_eq_ok_iff {dictionary final : Dictionary} {entry : Entry}
    {entries : List Entry} :
    setAll dictionary (entry :: entries) = .ok final ↔
      ∃ after, dictionary.set entry.key entry.value = .ok after ∧
        setAll after entries = .ok final := by
  unfold setAll
  rw [List.foldlM_cons]
  cases dictionary.set entry.key entry.value <;> simp [bind, Except.bind]

/-- The first fault of setting entries in order, or the fault that stands behind all of them. -/
def Fails (ending : Option Fault) (dictionary : Dictionary) (entries : List Entry) (fault : Fault)
    (final : Dictionary) : Prop :=
  (∃ before entry behind refusal, entries = before ++ entry :: behind ∧
    setAll dictionary before = .ok final ∧
    final.set entry.key entry.value = .error refusal ∧ fault = entry.refused refusal) ∨
  ending = some fault ∧ setAll dictionary entries = .ok final

theorem fails_cons_iff {ending : Option Fault} {dictionary final : Dictionary} {entry : Entry}
    {entries : List Entry} {fault : Fault} :
    Fails ending dictionary (entry :: entries) fault final ↔
      (∃ refusal, dictionary.set entry.key entry.value = .error refusal ∧
        fault = entry.refused refusal ∧ final = dictionary) ∨
      ∃ after, dictionary.set entry.key entry.value = .ok after ∧
        Fails ending after entries fault final := by
  constructor
  · rintro (⟨before, failing, behind, refusal, split, all, failed, rfl⟩ | ⟨atEnd, all⟩)
    · cases before with
      | nil =>
          simp only [List.nil_append, List.cons.injEq] at split
          rcases split with ⟨rfl, rfl⟩
          rw [setAll_nil_eq_ok_iff] at all
          subst final
          exact .inl ⟨refusal, failed, rfl, rfl⟩
      | cons first before =>
          simp only [List.cons_append, List.cons.injEq] at split
          rcases split with ⟨rfl, rfl⟩
          rcases setAll_cons_eq_ok_iff.mp all with ⟨after, written, rest⟩
          exact .inr ⟨after, written,
            .inl ⟨before, failing, behind, refusal, rfl, rest, failed, rfl⟩⟩
    · rcases setAll_cons_eq_ok_iff.mp all with ⟨after, written, rest⟩
      exact .inr ⟨after, written, .inr ⟨atEnd, rest⟩⟩
  · rintro (⟨refusal, failed, rfl, rfl⟩ | ⟨after, written, fails⟩)
    · exact .inl ⟨[], entry, entries, refusal, rfl, setAll_nil_eq_ok_iff.mpr rfl, failed, rfl⟩
    · rcases fails with ⟨before, failing, behind, refusal, rfl, rest, failed, rfl⟩ | ⟨atEnd, rest⟩
      · exact .inl ⟨entry :: before, failing, behind, refusal, rfl,
          setAll_cons_eq_ok_iff.mpr ⟨after, written, rest⟩, failed, rfl⟩
      · exact .inr ⟨atEnd, setAll_cons_eq_ok_iff.mpr ⟨after, written, rest⟩⟩

theorem writeAll_eq_ok_iff {ending : Option Fault} {written total : Nat}
    {dictionary final : Dictionary} {entries : List Entry} :
    writeAll ending written dictionary entries = (.ok total, final) ↔
      ending = none ∧ total = written + entries.length ∧
        setAll dictionary entries = .ok final := by
  induction entries generalizing written dictionary with
  | nil =>
      rw [setAll_nil_eq_ok_iff]
      cases ending <;> simp [writeAll, eq_comm]
  | cons entry rest ih =>
      rw [setAll_cons_eq_ok_iff, writeAll]
      cases set : dictionary.set entry.key entry.value with
      | error refusal => simp [writeTo_of_set_eq_error set]
      | ok after =>
          simp only [writeTo_of_set_eq_ok set, ih, List.length_cons, Except.ok.injEq,
            exists_eq_left']
          constructor
          · rintro ⟨noFault, rfl, all⟩
            exact ⟨noFault, by omega, all⟩
          · rintro ⟨noFault, rfl, all⟩
            exact ⟨noFault, by omega, all⟩

theorem writeAll_eq_error_iff {ending : Option Fault} {written : Nat} {fault : Fault}
    {dictionary final : Dictionary} {entries : List Entry} :
    writeAll ending written dictionary entries = (.error fault, final) ↔
      Fails ending dictionary entries fault final := by
  induction entries generalizing written dictionary with
  | nil =>
      simp only [Fails, List.nil_eq, List.append_eq_nil_iff, reduceCtorEq, and_false, false_and,
        exists_false, false_or, setAll_nil_eq_ok_iff]
      cases ending <;> simp [writeAll, eq_comm]
  | cons entry rest ih =>
      rw [fails_cons_iff, writeAll]
      cases set : dictionary.set entry.key entry.value with
      | error refusal => simp [writeTo_of_set_eq_error set, eq_comm]
      | ok after => simp [writeTo_of_set_eq_ok set, ih]

theorem code_of_splitEntry_eq_error {options : Options} {entry : List Char} {lineFault : LineFault}
    (failed : splitEntry options entry = .error lineFault) :
    lineFault.code = 202 ∨ lineFault.code = 203 ∨ lineFault.code = 204 := by
  unfold splitEntry at failed
  split at failed
  · split at failed
    · cases failed
    · cases failed
      exact .inl rfl
  · split at failed
    · split at failed
      · cases failed
        exact .inr (.inr rfl)
      · cases failed
    · cases failed
      exact .inr (.inl rfl)

theorem loadInto_eq_writeAll {options : Options} (accepted : options.validate = .ok ())
    {text : String} {blocks : List Block} {ending : Option (List Char × LineFault)}
    (layout : Layout options (Text.lines text.toList) blocks ending) (dictionary : Dictionary) :
    loadInto options text dictionary =
      writeAll (ending.map fun faulty => faulty.2.fault (height blocks + 1) (.ofList faulty.1)) 0
        dictionary (entriesOf options blocks) := by
  rw [loadInto_eq_writeOnto accepted, Reading.ofText, Reader.read_of_layout rfl layout]
  simp [Reading.writeOnto, readingOf, entriesOf]

/-- Loading sets the entries of a list that the options and the text decide. It succeeds if all of
them can be set and every line can be read, and it answers their number; otherwise it fails for
what comes first, an entry that cannot be set or the line that cannot be split, and leaves what the
entries before have made. A fault names the line on which the entry begins, and quotes it. -/
theorem loadInto_iff_of_layout {options : Options} (accepted : options.validate = .ok ())
    (text : String) :
    ∃ blocks ending, Layout options (Text.lines text.toList) blocks ending ∧
      (∀ blocks' ending', Layout options (Text.lines text.toList) blocks' ending' →
        blocks' = blocks ∧ ending' = ending) ∧
      (∀ entry ∈ entriesOf options blocks, ∃ above line more key value below,
        blocks = above ++ .entry line more key value :: below ∧
        entry.line = height above + 1 ∧ entry.content = .ofList line ∧
        (Text.lines text.toList)[height above]? = some line) ∧
      ∀ dictionary,
        (∀ total final, loadInto options text dictionary = (.ok total, final) ↔
          ending = none ∧ total = (entriesOf options blocks).length ∧
            setAll dictionary (entriesOf options blocks) = .ok final) ∧
        (∀ fault final, loadInto options text dictionary = (.error fault, final) ↔
          (∃ before entry behind refusal, entriesOf options blocks = before ++ entry :: behind ∧
            setAll dictionary before = .ok final ∧
            final.set entry.key entry.value = .error refusal ∧
            fault = { kind := .line entry.line entry.content refusal.display, code := some 205 }) ∨
          ∃ line lineFault, ending = some (line, lineFault) ∧
            setAll dictionary (entriesOf options blocks) = .ok final ∧
            (Text.lines text.toList)[height blocks]? = some line ∧
            (lineFault.code = 202 ∨ lineFault.code = 203 ∨ lineFault.code = 204) ∧
            fault =
              { kind := .line (height blocks + 1) (.ofList line) lineFault.message
                code := some lineFault.code }) := by
  rcases exists_layout options (Text.lines text.toList) with ⟨blocks, ending, layout⟩
  refine ⟨blocks, ending, layout, ?_, ?_, ?_⟩
  · intro blocks' ending' layout'
    exact layout'.unique layout
  · intro entry entry_mem
    rcases List.mem_map.mp entry_mem with ⟨place, place_mem, rfl⟩
    rcases exists_block_of_mem_placed place_mem with
      ⟨above, line, more, key, value, below, rfl, isEntry⟩
    refine ⟨above, line, more, key, value, below, rfl, ?_, ?_, layout.getElem?_of_entry⟩
    · simp [isEntry, Continuation.entry]
    · simp [isEntry, Continuation.entry]
  · intro dictionary
    rw [loadInto_eq_writeAll accepted layout]
    refine ⟨?_, ?_⟩
    · intro total final
      rw [writeAll_eq_ok_iff]
      simp
    · intro fault final
      rw [writeAll_eq_error_iff, Fails]
      apply or_congr_right
      constructor
      · rintro ⟨atEnd, all⟩
        rcases Option.map_eq_some_iff.mp atEnd with ⟨⟨line, lineFault⟩, rfl, rfl⟩
        rcases layout.getElem?_of_ending with ⟨splits, isLine⟩
        exact ⟨line, lineFault, rfl, all, isLine, code_of_splitEntry_eq_error splits.split, rfl⟩
      · rintro ⟨line, lineFault, rfl, all, _, _, rfl⟩
        exact ⟨rfl, all⟩

/-- An entry that cannot be set is reported on the line on which it begins, though its value goes
on in the next line. -/
theorem loadInto_iff_of_layout_continued :
    Options.properties.validate = .ok () ∧
      ∃ (fault : Fault) (final : Dictionary) (before : List Entry) (entry : Entry)
          (refusal : Fault),
        loadInto .properties "a = 1\nb[0] = x\\\ny" .emptyObject = (.error fault, final) ∧
        setAll .emptyObject before = .ok final ∧
        final.set entry.key entry.value = .error refusal ∧
        fault = { kind := .line 2 "b[0] = x\\" refusal.display, code := some 205 } := by
  have place : (match (loadInto .properties "a = 1\nb[0] = x\\\ny" .emptyObject).1 with
      | .error { kind := .line number content _, code, .. } => some (number, content, code)
      | _ => none) = some (2, "b[0] = x\\", some 205) := by decide
  have accepted : Options.properties.validate = .ok () := rfl
  rcases loadInto_iff_of_layout accepted "a = 1\nb[0] = x\\\ny" with
    ⟨blocks, ending, _, _, _, outcomes⟩
  rcases loaded : loadInto .properties "a = 1\nb[0] = x\\\ny" .emptyObject with
    ⟨fault | total, final⟩
  · rw [loaded] at place
    rcases ((outcomes .emptyObject).2 fault final).mp loaded with
      ⟨before, entry, _, refusal, _, all, failed, rfl⟩ | ⟨_, lineFault, _, _, _, code, rfl⟩
    · simp only [Option.some.injEq, Prod.mk.injEq, and_true] at place
      refine ⟨accepted, _, final, before, entry, refusal, rfl, all, failed, ?_⟩
      rw [place.1, place.2]
    · simp only [Option.some.injEq, Prod.mk.injEq] at place
      omega
  · rw [loaded] at place
    cases place

end ConfigTree.KeyValue
