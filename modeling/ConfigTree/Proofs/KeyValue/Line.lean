import ConfigTree.Proofs.KeyValue.Layout
import ConfigTree.Proofs.Path.Pieces
import ConfigTree.Proofs.Text.Trim

/-!
# What one line says

Lemmas about a single line, apart from the reader that goes from line to line: where
its comment begins, when it is a header, and how it is cut at an equals sign. A header
is known by its trimmed text alone, a pair of brackets around a name without a closing
one.
-/

namespace ConfigTree.KeyValue

variable {options : Options} {line : List Char}

theorem mem_commentMarks {c : Char} (mem : c ∈ options.commentMarks) :
    c = '#' ∨ c = ';' ∨ c = '!' := by
  simp only [Options.commentMarks, List.mem_append] at mem
  rcases mem with (hash | semicolon) | bang
  · exact .inl (by simpa using (List.mem_ite_nil_right.mp hash).2)
  · exact .inr (.inl (by simpa using (List.mem_ite_nil_right.mp semicolon).2))
  · exact .inr (.inr (by simpa using (List.mem_ite_nil_right.mp bang).2))

/-- A line without comment marks says all of itself. -/
theorem uncommented_eq_self (unmarked : ∀ c ∈ line, c ∉ options.commentMarks) :
    options.uncommented line = line := by
  rw [Options.uncommented, stripComment, List.takeWhile_eq_self_iff]
  intro c mem
  simpa using unmarked c mem

/-- A header is a name in brackets, with blanks around it and within. -/
theorem header?_eq_some_iff {name : List Char} :
    header? line = some name ↔
      ∃ inner, ']' ∉ inner ∧ Text.trim line = '[' :: (inner ++ [']']) ∧
        name = Text.trim inner := by
  constructor
  · intro found
    unfold header? at found
    split at found
    · next rest starts =>
      split at found
      · next behind closes =>
        split at found
        · next blank =>
          refine ⟨rest.takeWhile (· ≠ ']'), ?_, ?_, (Option.some.inj found).symm⟩
          · intro bracket
            simpa using List.mem_takeWhile_imp bracket
          · have split : rest = rest.takeWhile (· ≠ ']') ++ ']' :: behind := by
              rw [← closes]
              exact List.takeWhile_append_dropWhile.symm
            have whole : Text.trimStart line =
                ('[' :: (rest.takeWhile (· ≠ ']') ++ [']'])) ++ behind := by
              rw [starts]
              nth_rewrite 1 [split]
              simp
            rw [Text.trim, whole, Text.trimEnd_append_blanks _ (List.all_eq_true.mp blank),
              ← List.cons_append, Text.trimEnd_concat _ rfl]
        · cases found
      · cases found
    · cases found
  · rintro ⟨inner, noBracket, trimmed, rfl⟩
    have split : Text.trim line ++ (Text.trimStart line).rtakeWhile Text.isBlank =
        Text.trimStart line := List.rdropWhile_append_rtakeWhile
    have blank : ((Text.trimStart line).rtakeWhile Text.isBlank).all Text.isBlank = true := by
      rw [List.all_eq_true]
      intro c mem
      exact List.mem_rtakeWhile_imp mem
    have inside : ∀ c ∈ inner, decide (c ≠ ']') = true := by
      intro c mem
      rw [decide_eq_true_eq]
      rintro rfl
      exact noBracket mem
    rw [trimmed, List.cons_append, List.append_assoc, List.singleton_append] at split
    unfold header?
    rw [← split]
    simp only
    rw [List.dropWhile_append_of_pos inside, List.takeWhile_append_of_pos inside]
    simp [blank]

/-- Blanks behind a line do not count for a header. -/
theorem header?_trimEnd (line : List Char) : header? (Text.trimEnd line) = header? line := by
  apply Option.ext
  intro name
  rw [header?_eq_some_iff, header?_eq_some_iff, Text.trim_trimEnd]

/-- A line whose last character is no bracket is no header. -/
theorem header?_eq_none {c : Char} (last : line.getLast? = some c)
    (filled : Text.isBlank c = false) (notBracket : c ≠ ']') : header? line = none := by
  cases found : header? line with
  | none => rfl
  | some name =>
      rcases header?_eq_some_iff.mp found with ⟨inner, _, trimmed, _⟩
      rcases List.getLast?_eq_some_iff.mp last with ⟨before, rfl⟩
      have lastTrimmed := congrArg List.getLast? (Text.trim_append_cons before filled [])
      have bracket : ('[' :: (inner ++ [']'])).getLast? = some ']' := by
        rw [← List.cons_append, List.getLast?_concat]
      rw [trimmed, bracket] at lastTrimmed
      simp [Text.trimEnd, notBracket.symm] at lastTrimmed

theorem no_bracket_of_header? {name : List Char} (found : header? line = some name) :
    ']' ∉ name := by
  rcases header?_eq_some_iff.mp found with ⟨inner, noBracket, _, rfl⟩
  intro bracket
  exact noBracket (Text.mem_of_mem_trim bracket)

/-- A line that is cut at its only equals sign. -/
theorem splitEntry_of_equals (equals : options.equalsSeparator = true)
    {first rest : List Char} (noneBefore : '=' ∉ first) (noneBehind : '=' ∉ rest)
    (leads : Path.pieces first ≠ []) :
    splitEntry options (Text.trim (first ++ '=' :: rest)) =
      .ok (Text.trim first, Text.trim rest) := by
  have trimmed : Text.trim (first ++ '=' :: rest) =
      Text.trimStart first ++ '=' :: Text.trimEnd rest :=
    Text.trim_append_cons first rfl rest
  have isSeparator : separator? options (Text.trim (first ++ '=' :: rest)) = some '=' := by
    rw [separator?, trimmed]
    simp [equals]
  have parts : (Text.trim (first ++ '=' :: rest)).splitOn '=' =
      [Text.trimStart first, Text.trimEnd rest] := by
    have noneInFirst : '=' ∉ Text.trimStart first := by
      intro mem
      exact noneBefore (List.dropWhile_subset _ mem)
    have noneInRest : '=' ∉ Text.trimEnd rest := by
      intro mem
      exact noneBehind ((List.rdropWhile_prefix Text.isBlank rest).subset mem)
    rw [trimmed, List.splitOn_append_cons_self, List.splitOn_eq_singleton noneInFirst,
      List.splitOn_eq_singleton noneInRest]
    rfl
  unfold splitEntry
  rw [isSeparator]
  simp [parts, Path.pieces_trim, leads]

end ConfigTree.KeyValue
