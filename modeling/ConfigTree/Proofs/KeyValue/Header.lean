import ConfigTree.Proofs.KeyValue.Line
import ConfigTree.Proofs.Text.Pattern

/-!
# Headers as a pattern

A header can be given as a pattern: a name in brackets, with blanks around the name
and around the brackets. Blanks at its ends could be part of the name, so there are many
ways to cut a header. All of them have the same brackets, since a closing bracket
occurs only once. The blanks in front of the name are a greedy run, so they leave none
to the name, and the name is a lazy run, so it leaves the blanks behind it to the run
that follows. What is cut out as the name is therefore the trimmed text between the
brackets, and this is the name of the header.
-/

namespace ConfigTree.KeyValue

open Text (Matches findPieces isBlank)

/-- As many blanks as possible. -/
def blanksPart : Text.Part :=
  .run .longestFirst isBlank

/-- What stands behind the name of a header. -/
def closingPattern : List Text.Part :=
  [blanksPart, .mark ']', blanksPart]

/-- A header with the shortest possible name. -/
def headerPattern : List Text.Part :=
  blanksPart :: .mark '[' :: blanksPart :: .run .shortestFirst (· ≠ ']') :: closingPattern

/-- The piece for the name among the pieces of a header. -/
def namePiece (pieces : List (List Char)) : Option (List Char) :=
  pieces[3]?

variable {line : List Char} {pieces : List (List Char)}

theorem no_bracket_of_blank {blanks : List Char} (allBlank : ∀ c ∈ blanks, isBlank c = true) :
    ']' ∉ blanks :=
  Text.notMem_of_blank rfl allBlank

section Matches

theorem of_matches_closing {text : List Char} (isMatch : Matches closingPattern text pieces) :
    ∃ right behind, text = right ++ ']' :: behind ∧ (∀ c ∈ right, isBlank c = true) ∧
      ∀ c ∈ behind, isBlank c = true := by
  rcases isMatch with _ | ⟨rightBlank, _ | ⟨closes, _ | ⟨behindBlank, _ | _⟩⟩⟩
  cases closes
  exact ⟨_, _, by simp, rightBlank, behindBlank⟩

theorem of_matches_header (isMatch : Matches headerPattern line pieces) :
    ∃ before left name right behind,
      line = before ++ '[' :: (left ++ (name ++ (right ++ ']' :: behind))) ∧
      namePiece pieces = some name ∧ ']' ∉ name ∧ (∀ c ∈ before, isBlank c = true) ∧
      (∀ c ∈ left, isBlank c = true) ∧ (∀ c ∈ right, isBlank c = true) ∧
      ∀ c ∈ behind, isBlank c = true := by
  rcases isMatch with _ | ⟨beforeBlank, _ | ⟨opens, _ | ⟨leftBlank, _ | ⟨noBracket, closing⟩⟩⟩⟩
  cases opens
  rcases of_matches_closing closing with ⟨right, behind, rfl, rightBlank, behindBlank⟩
  refine ⟨_, _, _, right, behind, rfl, rfl, ?_, beforeBlank, leftBlank, rightBlank, behindBlank⟩
  intro bracket
  simpa using noBracket _ bracket

/-- However a line is cut into the pieces of a header, it is a header, and its name is in the piece
for it. -/
theorem header?_of_matches (isMatch : Matches headerPattern line pieces) :
    ∃ piece, namePiece pieces = some piece ∧ header? line = some (Text.trim piece) := by
  rcases of_matches_header isMatch with
    ⟨before, left, name, right, behind, rfl, isPiece, noBracket, beforeBlank, leftBlank,
      rightBlank, behindBlank⟩
  refine ⟨name, isPiece, header?_eq_some_iff.mpr ⟨left ++ name ++ right, ?_, ?_, ?_⟩⟩
  · simp [noBracket, no_bracket_of_blank leftBlank, no_bracket_of_blank rightBlank]
  · have whole : before ++ '[' :: (left ++ (name ++ (right ++ ']' :: behind))) =
        before ++ ('[' :: (left ++ name ++ right ++ [']']) ++ behind) := by simp
    rw [whole, Text.trim_blanks_append beforeBlank, Text.trim_append_blanks _ behindBlank]
    apply Text.trim_eq_self
    · rintro c ⟨⟩
      rfl
    · intro c last
      rw [← List.cons_append, List.getLast?_concat] at last
      cases last
      rfl
  · rw [Text.trim_append_blanks _ rightBlank, Text.trim_blanks_append leftBlank]

end Matches

section Find

variable {before inner behind right : List Char}

/-- Whatever a trimmed text ends with, it is not blank. -/
theorem exists_not_blank_of_trim_eq {text earlier more : List Char}
    (split : Text.trim text = earlier ++ more) (filled : more ≠ []) :
    ∃ c ∈ more, isBlank c = false := by
  refine ⟨more.getLast filled, List.getLast_mem filled, ?_⟩
  apply @Text.not_blank_of_getLast?_trim text
  rw [split, List.getLast?_append_of_ne_nil _ filled, List.getLast?_eq_getLast_of_ne_nil filled]

theorem findPieces_closing (rightBlank : ∀ c ∈ right, isBlank c = true)
    (behindBlank : ∀ c ∈ behind, isBlank c = true) :
    findPieces closingPattern (right ++ ']' :: behind) = some [right, [']'], behind] := by
  have atEnd : findPieces [blanksPart] (behind ++ []) = some [behind] :=
    Text.findPieces_greedy behindBlank (by simp) rfl
  rw [List.append_nil] at atEnd
  apply Text.findPieces_greedy rightBlank _ (Text.findPieces_mark atEnd)
  rintro c ⟨⟩
  rfl

/-- Only blanks can stand between the name of a header and its closing bracket. -/
theorem findPieces_closing_eq_none {more : List Char} {c : Char} (mem : c ∈ more)
    (filled : isBlank c = false) :
    findPieces closingPattern (more ++ (right ++ ']' :: behind)) = none := by
  rw [Text.findPieces_eq_none_iff]
  intro pieces isMatch
  rcases of_matches_closing isMatch with ⟨blanks, rest, split, allBlank, restBlank⟩
  rw [← List.append_assoc, eq_comm, List.append_cons_inj_of_notMem
    (no_bracket_of_blank allBlank) (no_bracket_of_blank restBlank)] at split
  exact Text.notMem_of_blank filled allBlank (by simp [split.1, mem])

/-- The cut of a header that is found: the greedy blanks in front of the name take all blanks there,
and the lazy name leaves the blanks behind it to the blanks that follow. -/
theorem findPieces_header (beforeBlank : ∀ c ∈ before, isBlank c = true)
    (noBracket : ']' ∉ inner) (behindBlank : ∀ c ∈ behind, isBlank c = true) :
    findPieces headerPattern (before ++ '[' :: (inner ++ ']' :: behind)) =
      some [before, ['['], inner.takeWhile isBlank, Text.trim inner,
        (Text.trimStart inner).rtakeWhile isBlank, [']'], behind] := by
  have started : Text.trimStart inner ++ ']' :: behind =
      Text.trim inner ++ ((Text.trimStart inner).rtakeWhile isBlank ++ ']' :: behind) := by
    rw [← List.append_assoc]
    exact congrArg (· ++ ']' :: behind) List.rdropWhile_append_rtakeWhile.symm
  have split : inner ++ ']' :: behind =
      inner.takeWhile isBlank ++ (Text.trimStart inner ++ ']' :: behind) := by
    rw [← List.append_assoc]
    exact congrArg (· ++ ']' :: behind) List.takeWhile_append_dropWhile.symm
  rw [split]
  apply Text.findPieces_greedy beforeBlank
  · rintro c ⟨⟩
    rfl
  apply Text.findPieces_mark
  apply Text.findPieces_greedy (fun c mem => List.mem_takeWhile_imp mem)
  · -- Where the blanks in front of the name end, the name begins or, if it is empty, the bracket.
    intro c begins
    cases starts : Text.trimStart inner with
    | nil =>
        rw [starts] at begins
        cases begins
        rfl
    | cons first rest =>
        rw [starts] at begins
        cases begins
        apply @Text.not_blank_of_head?_trimStart inner
        rw [starts, List.head?_cons]
  rw [started]
  apply Text.findPieces_lazy
  · intro c mem
    rw [decide_eq_true_eq]
    rintro rfl
    exact noBracket (Text.mem_of_mem_trim mem)
  · intro earlier more split filled
    rcases exists_not_blank_of_trim_eq split filled with ⟨c, mem, notBlank⟩
    exact findPieces_closing_eq_none mem notBlank
  · exact findPieces_closing (fun c mem => List.mem_rtakeWhile_imp mem) behindBlank

/-- What is cut out as the name of a header is its name, and of no other line a name is cut out. -/
theorem findPieces_bind_namePiece (line : List Char) :
    (findPieces headerPattern line).bind namePiece = header? line := by
  cases found : header? line with
  | none =>
      have notFound : findPieces headerPattern line = none := by
        rw [Text.findPieces_eq_none_iff]
        intro pieces isMatch
        rcases header?_of_matches isMatch with ⟨piece, _, isHeader⟩
        cases found.symm.trans isHeader
      rw [notFound, Option.bind_none]
  | some name =>
      rcases header?_eq_some_iff.mp found with ⟨inner, noBracket, trimmed, rfl⟩
      rcases Text.exists_eq_append_trim line with
        ⟨before, behind, split, beforeBlank, behindBlank⟩
      rw [trimmed, List.cons_append, List.append_assoc, List.singleton_append] at split
      rw [split, findPieces_header beforeBlank noBracket behindBlank]
      rfl

end Find

/-- A text in brackets, said by its ends. -/
theorem eq_in_brackets_iff {text inner : List Char} :
    text = '[' :: (inner ++ [']']) ↔
      text.head? = some '[' ∧ text.getLast? = some ']' ∧ inner = text.tail.dropLast := by
  constructor
  · rintro rfl
    rw [← List.cons_append, List.getLast?_concat]
    simp
  · rintro ⟨opens, closes, rfl⟩
    rcases List.getLast?_eq_some_iff.mp closes with ⟨front, rfl⟩
    cases front with
    | nil => cases opens
    | cons first inner =>
        cases opens
        simp

/-- A line is a header if, trimmed, it begins with an opening bracket and ends with a closing one
that is its only one, and the trimmed text between them is its name. This is what a matcher cuts out
as the name with the pattern of a header. Of all ways to cut the line into the pieces of a header it
finds the one that greedy and lazy runs prefer, and what the others cut out as the name is the same
but for blanks. -/
theorem header?_iff_of_brackets (line : List Char) :
    (∀ name, header? line = some name ↔
      (Text.trim line).head? = some '[' ∧ (Text.trim line).getLast? = some ']' ∧
        ']' ∉ (Text.trim line).dropLast ∧ name = Text.trim (Text.trim line).tail.dropLast) ∧
    header? line = (findPieces headerPattern line).bind namePiece ∧
    (∀ pieces, findPieces headerPattern line = some pieces ↔
      Text.Preferred headerPattern line pieces) ∧
    ∀ pieces, Matches headerPattern line pieces →
      ∃ piece, namePiece pieces = some piece ∧ header? line = some (Text.trim piece) := by
  refine ⟨?_, (findPieces_bind_namePiece line).symm,
    fun pieces => Text.findPieces_eq_some_iff, fun pieces isMatch => header?_of_matches isMatch⟩
  intro name
  rw [header?_eq_some_iff]
  constructor
  · rintro ⟨inner, noBracket, trimmed, rfl⟩
    rcases eq_in_brackets_iff.mp trimmed with ⟨opens, closes, rfl⟩
    refine ⟨opens, closes, ?_, rfl⟩
    rw [trimmed, ← List.cons_append, List.dropLast_concat]
    simp [noBracket]
  · rintro ⟨opens, closes, noBracket, rfl⟩
    have trimmed := eq_in_brackets_iff.mpr ⟨opens, closes, rfl⟩
    refine ⟨_, ?_, trimmed, rfl⟩
    rw [trimmed, ← List.cons_append, List.dropLast_concat] at noBracket
    exact fun bracket => noBracket (List.mem_cons_of_mem _ bracket)

/-- A name of blanks only can be cut in many ways, and it is empty. -/
theorem header?_iff_of_brackets_blanks :
    Matches headerPattern [' ', '[', ' ', '\t', ' ', ']']
        [[' '], ['['], [' '], ['\t'], [' '], [']'], []] ∧
      header? [' ', '[', ' ', '\t', ' ', ']'] = some [] := by
  have isMatch : Matches headerPattern [' ', '[', ' ', '\t', ' ', ']']
      [[' '], ['['], [' '], ['\t'], [' '], [']'], []] := by decide
  rcases (header?_iff_of_brackets _).2.2.2 _ isMatch with ⟨piece, isPiece, isHeader⟩
  cases isPiece
  exact ⟨isMatch, isHeader⟩

/-- Opening brackets, separators and dots may stand in the name of a header. -/
example : findPieces headerPattern "[ .[a = b ]".toList =
    some ["".toList, "[".toList, " ".toList, ".[a = b".toList, " ".toList, "]".toList,
      "".toList] := by decide

end ConfigTree.KeyValue
