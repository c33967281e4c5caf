import ConfigTree.Proofs.KeyValue.Reading
import ConfigTree.Proofs.Text.Lines

/-!
# Loading joined texts

All that a reader remembers between lines is the scope, a value that is not complete,
and the number of lines. Where a text leaves neither scope nor value, the lines behind
it are read as if they were a text of their own, only further down. Loading two such
texts at once is then loading one after the other.
-/

namespace ConfigTree

/-- The fault as it is reported where a number of lines stand above. -/
def Fault.lower (above : Nat) (fault : Fault) : Fault :=
  match fault.kind with
  | .line number content message => { fault with kind := .line (above + number) content message }
  | .pathSyntax .. | .notFound .. | .outOfBounds .. | .typeMismatch .. | .unsupported ..
  | .conversion .. | .substitution .. | .invalidOptions .. | .json .. | .file .. => fault

namespace KeyValue

/-- The reader behind lines. What the lines hand out is left aside. -/
def Reader.behind (options : Options) (reader : Reader) (lines : List (List Char)) :
    Except Fault Reader :=
  lines.foldlM (fun reader line => (reader.feed options line).map Prod.fst) reader

/-- Reading the text, if nothing stops it, ends outside of sections and of values. -/
def LeavesNothing (options : Options) (text : String) : Prop :=
  ∀ reader, Reader.behind options {} (Text.lines text.toList) = .ok reader →
    reader.pending = none ∧ reader.scope = []

namespace Reader

variable {options : Options} {reader after : Reader} {line : List Char}
  {lines : List (List Char)}

theorem behind_cons_of_feed {entry : Option Entry}
    (fed : reader.feed options line = .ok (after, entry)) :
    reader.behind options (line :: lines) = after.behind options lines := by
  rw [behind, List.foldlM_cons, fed]
  rfl

theorem Step.line_eq {entry : Option Entry} (step : Step options reader line after entry) :
    after.line = reader.line + 1 := by
  cases step <;> rfl

theorem exists_of_behind_cons (passed : reader.behind options (line :: lines) = .ok after) :
    ∃ middle entry, reader.feed options line = .ok (middle, entry) ∧
      middle.behind options lines = .ok after := by
  cases fed : reader.feed options line with
  | error fault => simp [behind, fed, Except.map, bind, Except.bind] at passed
  | ok next =>
      rcases next with ⟨middle, entry⟩
      rw [behind_cons_of_feed fed] at passed
      exact ⟨middle, entry, rfl, passed⟩

theorem line_behind (passed : reader.behind options lines = .ok after) :
    after.line = reader.line + lines.length := by
  induction lines generalizing reader with
  | nil =>
      cases passed
      rfl
  | cons line rest ih =>
      rcases exists_of_behind_cons passed with ⟨middle, entry, fed, passedRest⟩
      have lineOfRest := ih passedRest
      have lineOfStep := (step_of_feed fed).line_eq
      rw [List.length_cons]
      omega

end Reader

/-- Lines that leave no value open can be loaded apart from those behind them. -/
theorem loadLines_append {options : Options} {reader : Reader} {first : List (List Char)}
    (closed : ∀ after, reader.behind options first = .ok after → after.pending = none)
    (second : List (List Char)) (written : Nat) (dictionary : Dictionary) :
    (∃ fault middle, loadLines options reader written dictionary first = (.error fault, middle) ∧
      loadLines options reader written dictionary (first ++ second) = (.error fault, middle)) ∨
    ∃ after total middle, reader.behind options first = .ok after ∧
      loadLines options reader written dictionary first = (.ok total, middle) ∧
      loadLines options reader written dictionary (first ++ second) =
        loadLines options after total middle second := by
  induction first generalizing reader written dictionary with
  | nil =>
      have idle : reader.pending = none := closed reader rfl
      refine .inr ⟨reader, written, dictionary, rfl, ?_, rfl⟩
      simp [loadLines, Reader.finish, idle]
  | cons line rest ih =>
      cases fed : reader.feed options line with
      | error fault =>
          refine .inl ⟨fault, dictionary, ?_, ?_⟩ <;> simp [loadLines, fed]
      | ok next =>
          rcases next with ⟨middle, handed⟩
          have passed := fun lines =>
            @Reader.behind_cons_of_feed options reader middle line lines _ fed
          rw [passed] at closed ⊢
          cases handed with
          | none =>
              simpa only [loadLines, fed, List.cons_append] using ih closed written dictionary
          | some entry =>
              cases wrote : entry.writeTo dictionary with
              | error fault =>
                  refine .inl ⟨fault, dictionary, ?_, ?_⟩ <;> simp [loadLines, fed, wrote]
              | ok changed =>
                  simpa only [loadLines, fed, wrote, List.cons_append] using
                    ih closed (written + 1) changed

/-- A value that is not complete, with more lines above it. -/
def Continuation.lower (above : Nat) (continuation : Continuation) : Continuation :=
  { continuation with line := above + continuation.line }

/-- An entry with more lines above it. -/
def Entry.lower (above : Nat) (entry : Entry) : Entry :=
  { entry with line := above + entry.line }

/-- A reader with more lines above it. -/
def Reader.lower (above : Nat) (reader : Reader) : Reader :=
  { reader with
    pending := reader.pending.map (Continuation.lower above)
    line := above + reader.line }

theorem Continuation.entry_lower (options : Options) (above : Nat) (continuation : Continuation) :
    (continuation.lower above).entry options = (continuation.entry options).lower above := rfl

/-- Lines above change the numbers of lines in what a reader hands out, and nothing else. -/
theorem Reader.feed_lower (options : Options) (above : Nat) (reader : Reader) (line : List Char) :
    (reader.lower above).feed options line =
      ((reader.feed options line).mapError (Fault.lower above)).map fun next =>
        (next.1.lower above, next.2.map (Entry.lower above)) := by
  rcases reader with ⟨scope, pending, number⟩
  cases pending with
  | some continuation =>
      simp only [feed, lower, feedPending, Option.map_some]
      split <;> rfl
  | none =>
      simp only [feed, lower, Option.map_none]
      split
      · rfl
      · split
        · rfl
        · rw [feedEntry, feedEntry]
          cases splitEntry options (Text.trim (stripComment options.commentMarks line)) with
          | error lineFault => rfl
          | ok parts =>
              simp only [mapError_ok, bind, Except.bind, pure, Except.pure]
              split <;> rfl

theorem Entry.writeTo_lower (above : Nat) (entry : Entry) (dictionary : Dictionary) :
    (entry.lower above).writeTo dictionary =
      (entry.writeTo dictionary).mapError (Fault.lower above) := by
  cases set : dictionary.set entry.key entry.value with
  | error refusal =>
      rw [writeTo_of_set_eq_error set]
      exact writeTo_of_set_eq_error set
  | ok after =>
      rw [writeTo_of_set_eq_ok set]
      exact writeTo_of_set_eq_ok set

/-- Lines further down are loaded in the same way; a fault carries the number of a lower line. -/
theorem loadLines_lower (options : Options) (above before : Nat) (reader : Reader) (written : Nat)
    (dictionary : Dictionary) (lines : List (List Char)) :
    loadLines options (reader.lower above) (before + written) dictionary lines =
      match loadLines options reader written dictionary lines with
      | (.error fault, final) => (.error (fault.lower above), final)
      | (.ok total, final) => (.ok (before + total), final) := by
  induction lines generalizing reader written dictionary with
  | nil =>
      rcases reader with ⟨scope, pending, number⟩
      cases pending with
      | none => rfl
      | some continuation =>
          simp only [loadLines, Reader.finish, Reader.lower, Option.map_some,
            Continuation.entry_lower, Entry.writeTo_lower]
          cases (continuation.entry options).writeTo dictionary <;> rfl
  | cons line rest ih =>
      simp only [loadLines, Reader.feed_lower]
      cases reader.feed options line with
      | error fault => rfl
      | ok next =>
          rcases next with ⟨after, handed⟩
          cases handed with
          | none => exact ih after written dictionary
          | some entry =>
              simp only [mapError_ok, Except.map, Option.map_some, Entry.writeTo_lower]
              cases entry.writeTo dictionary with
              | error fault => rfl
              | ok changed => exact ih after (written + 1) changed

/-- Behind a text that ends outside of sections and of values, another text has the effect that it
has alone. Its faults carry the numbers of lines of the whole. -/
theorem loadInto_append {options : Options} {first : String} (ends : Text.EndsLine first.toList)
    (leaves : LeavesNothing options first) (second : String) (dictionary : Dictionary) :
    loadInto options (first ++ second) dictionary =
      match loadInto options first dictionary with
      | (.error fault, middle) => (.error fault, middle)
      | (.ok written, middle) =>
        match loadInto options second middle with
        | (.error fault, final) => (.error (fault.lower (Text.lines first.toList).length), final)
        | (.ok more, final) => (.ok (written + more), final) := by
  cases accepted : options.validate with
  | error fault => simp [loadInto, accepted]
  | ok _ =>
      have lines : Text.lines (first ++ second).toList =
          Text.lines first.toList ++ Text.lines second.toList := by
        rw [String.toList_append, Text.lines_append ends]
      simp only [loadInto, accepted, lines]
      have closed : ∀ after, Reader.behind options {} (Text.lines first.toList) = .ok after →
          after.pending = none := fun after passed => (leaves after passed).1
      rcases loadLines_append closed (Text.lines second.toList) 0 dictionary with
        ⟨fault, middle, failed, whole⟩ | ⟨after, total, middle, passed, loaded, whole⟩
      · rw [whole, failed]
      · -- The second text starts with a reader that differs from a fresh one in its line only.
        have isLowered : after = Reader.lower (Text.lines first.toList).length {} := by
          have line := Reader.line_behind passed
          rcases leaves after passed with ⟨noValue, noScope⟩
          rcases after with ⟨scope, pending, number⟩
          subst noValue noScope line
          simp [Reader.lower]
        rw [whole, loaded, isLowered]
        exact loadLines_lower options _ total {} 0 middle _

/-- Behind a text that has left its section, the second line of another text is the fifth line of
the whole, and the entry in front of it has been written. -/
theorem loadInto_append_lower_line :
    Text.EndsLine "[s]\na = 1\n[]\n".toList ∧ LeavesNothing .ini "[s]\na = 1\n[]\n" ∧
      ∃ middle final : Dictionary,
        loadInto .ini "[s]\na = 1\n[]\n" .emptyObject = (.ok 1, middle) ∧
        loadInto .ini "b = 2\nc" middle =
          (.error (LineFault.fault 2 "c" .missingValue), final) ∧
        loadInto .ini ("[s]\na = 1\n[]\n" ++ "b = 2\nc") .emptyObject =
          (.error (LineFault.fault 5 "c" .missingValue), final) := by
  have ends : Text.EndsLine "[s]\na = 1\n[]\n".toList := .inr (by decide)
  have leaves : LeavesNothing .ini "[s]\na = 1\n[]\n" := by
    rintro reader ⟨⟩
    exact ⟨rfl, rfl⟩
  have first : (loadInto .ini "[s]\na = 1\n[]\n" .emptyObject).1 = .ok 1 := by decide
  have second : (loadInto .ini "b = 2\nc"
      (loadInto .ini "[s]\na = 1\n[]\n" .emptyObject).2).1 =
        .error (LineFault.fault 2 "c" .missingValue) := by decide
  have joined := loadInto_append ends leaves "b = 2\nc" .emptyObject
  rcases loaded : loadInto .ini "[s]\na = 1\n[]\n" .emptyObject with ⟨_, middle⟩
  rw [loaded] at first second joined
  subst first
  rcases failed : loadInto .ini "b = 2\nc" middle with ⟨_, final⟩
  rw [failed] at second
  subst second
  refine ⟨ends, leaves, middle, final, rfl, failed, ?_⟩
  simp only [failed] at joined
  exact joined

end KeyValue

end ConfigTree
