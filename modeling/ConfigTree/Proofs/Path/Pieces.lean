import ConfigTree.Path.Cursor
import ConfigTree.Proofs.Text.Trim

/-!
# The pieces of a path

Everything about joined paths rests on one equation: a dot between two texts
separates their pieces. The segments of the joined path are then those of the
first text followed by those of the second, as long as both can be read.

A text without pieces consists of dots and blanks. Reading pieces never loses
one, so only such a text leads nowhere.

A cursor is given what stands between the dots and passes over the blank parts, so
what it reads next is the first piece that is left. `Cursor.Passes` says what a call
comes to in these terms.
-/

namespace ConfigTree

namespace Path

/-- A dot between two texts separates their pieces. -/
theorem pieces_append_dot (first second : List Char) :
    pieces (first ++ '.' :: second) = pieces first ++ pieces second := by
  simp [pieces, List.splitOn_append_cons_self]

@[simp]
theorem pieces_nil : pieces [] = [] := by
  simp [pieces]

/-- A text without pieces consists of dots and blanks. -/
theorem pieces_eq_nil_iff {path : List Char} :
    pieces path = [] ↔ ∀ c ∈ path, c = '.' ∨ Text.isBlank c = true := by
  have blankPieces : pieces path = [] ↔
      ∀ piece ∈ path.splitOn '.', ∀ c ∈ piece, Text.isBlank c = true := by
    simp [pieces, List.filter_eq_nil_iff, Text.trim_eq_nil_iff]
  rw [blankPieces]
  clear blankPieces
  induction path with
  | nil => simp
  | cons first rest ih =>
      rw [List.splitOn_cons_eq_if_modifyHead]
      by_cases dot : first = '.'
      · simp [dot, ih]
      · rcases List.exists_cons_of_ne_nil (List.splitOn_ne_nil '.' rest) with ⟨head, tail, split⟩
        simp only [split, List.mem_cons, forall_eq_or_imp] at ih
        simp only [split, beq_iff_eq, dot, if_false, List.modifyHead_cons, List.mem_cons,
          forall_eq_or_imp, false_or, and_assoc, ih]

theorem pieces_of_no_dot {path : List Char} (noDot : '.' ∉ path) :
    pieces path = [Text.trim path].filter (· ≠ []) := by
  rw [pieces, List.splitOn_eq_singleton noDot, List.map_singleton]

section Blanks

variable {blanks : List Char} (allBlank : ∀ c ∈ blanks, Text.isBlank c = true)

include allBlank

theorem no_dot_of_blank : '.' ∉ blanks :=
  Text.notMem_of_blank rfl allBlank

/-- Blanks in front of a path are blanks around its first piece. -/
theorem pieces_blanks_append (path : List Char) : pieces (blanks ++ path) = pieces path := by
  have onePiece : ∀ first : List Char, '.' ∉ first → pieces (blanks ++ first) = pieces first := by
    intro first noDot
    have noDotBefore : '.' ∉ blanks ++ first := by simp [no_dot_of_blank allBlank, noDot]
    rw [pieces_of_no_dot noDotBefore, pieces_of_no_dot noDot, Text.trim_blanks_append allBlank]
  by_cases dot : '.' ∈ path
  · rcases List.eq_append_cons_of_mem dot with ⟨first, rest, rfl, noDot⟩
    rw [← List.append_assoc, pieces_append_dot, pieces_append_dot, onePiece first noDot]
  · exact onePiece path dot

/-- Blanks behind a path are blanks around its last piece. -/
theorem pieces_append_blanks (path : List Char) : pieces (path ++ blanks) = pieces path := by
  have onePiece : ∀ last : List Char, '.' ∉ last → pieces (last ++ blanks) = pieces last := by
    intro last noDot
    have noDotBehind : '.' ∉ last ++ blanks := by simp [no_dot_of_blank allBlank, noDot]
    rw [pieces_of_no_dot noDotBehind, pieces_of_no_dot noDot,
      Text.trim_append_blanks last allBlank]
  by_cases dot : '.' ∈ path
  · rcases List.eq_append_cons_of_mem (List.mem_reverse.mpr dot) with
      ⟨last, first, backwards, noDot⟩
    have split : path = first.reverse ++ '.' :: last.reverse := by
      rw [← List.reverse_reverse path, backwards]
      simp
    have noDotInLast : '.' ∉ last.reverse := by simpa using noDot
    rw [split, List.append_assoc, List.cons_append, pieces_append_dot, pieces_append_dot,
      onePiece last.reverse noDotInLast]
  · exact onePiece path dot

end Blanks

/-- Blanks at the ends of a path do not count. -/
theorem pieces_trim (path : List Char) : pieces (Text.trim path) = pieces path := by
  rcases Text.exists_eq_append_trim path with ⟨before, behind, split, beforeBlank, behindBlank⟩
  have whole : pieces path = pieces (before ++ (Text.trim path ++ behind)) := congrArg pieces split
  rw [whole, pieces_blanks_append beforeBlank, pieces_append_blanks behindBlank]

/-- A path written as the root has no pieces. -/
theorem pieces_eq_nil_of_isRoot {path : String} (root : isRoot path = true) :
    pieces path.toList = [] := by
  rw [← pieces_trim]
  simp only [isRoot, Bool.or_eq_true, decide_eq_true_eq] at root
  rcases root with empty | dot
  · simp [empty]
  · rw [dot]
    decide

/-- Of the paths of dots and blanks, those with no more than one dot are written as the root. -/
theorem isRoot_iff_count {path : String} (empty : pieces path.toList = []) :
    isRoot path = true ↔ path.toList.count '.' ≤ 1 := by
  simp only [isRoot, Bool.or_eq_true, decide_eq_true_eq]
  constructor
  · intro written
    rw [← @Text.count_trim path.toList '.' rfl]
    rcases written with noDot | oneDot
    · simp [noDot]
    · simp [oneDot]
  · intro few
    rw [pieces_eq_nil_iff] at empty
    by_cases dot : '.' ∈ path.toList
    · right
      rcases List.append_of_mem dot with ⟨before, behind, split⟩
      rw [split] at few empty ⊢
      rw [List.count_append, List.count_cons_self] at few
      have noDotBefore : '.' ∉ before := List.count_eq_zero.mp (by omega)
      have noDotBehind : '.' ∉ behind := List.count_eq_zero.mp (by omega)
      have beforeBlank : ∀ c ∈ before, Text.isBlank c = true := by
        intro c mem
        have isDot := fun same : c = '.' => noDotBefore (same ▸ mem)
        exact (empty c (by simp [mem])).resolve_left isDot
      have behindBlank : ∀ c ∈ behind, Text.isBlank c = true := by
        intro c mem
        have isDot := fun same : c = '.' => noDotBehind (same ▸ mem)
        exact (empty c (by simp [mem])).resolve_left isDot
      rw [Text.trim_blanks_append beforeBlank]
      exact Text.trim_append_blanks ['.'] behindBlank
    · left
      rw [Text.trim_eq_nil_iff]
      intro c mem
      exact (empty c mem).resolve_left fun same => dot (same ▸ mem)

/-- Pieces behind others are read as long as all before them can be read. -/
theorem readPieces_append (first second : List (List Char)) :
    readPieces (first ++ second) =
      match readPieces first with
      | (segments, none) =>
          (segments ++ (readPieces second).1, (readPieces second).2)
      | (segments, some bad) => (segments, some bad) := by
  induction first with
  | nil => simp [readPieces]
  | cons piece rest ih =>
      simp only [List.cons_append, readPieces]
      cases readPiece piece with
      | error bad => rfl
      | ok read =>
          rcases read with ⟨key, position⟩
          simp only [ih]
          rcases readPieces rest with ⟨segments, _ | bad⟩ <;> simp

/-- Every piece that can be read is at least one segment. -/
theorem eq_nil_of_readPieces_eq_nil {remaining : List (List Char)}
    (read : readPieces remaining = ([], none)) : remaining = [] := by
  cases remaining with
  | nil => rfl
  | cons piece rest =>
      simp only [readPieces] at read
      cases whole : readPiece piece with
      | error bad => simp [whole] at read
      | ok segments => simp [whole] at read

theorem tokenize_eq_ok_iff {path : String} {segments : List Segment} :
    tokenize path = .ok segments ↔ readPieces (pieces path.toList) = (segments, none) := by
  unfold tokenize
  rcases readPieces (pieces path.toList) with ⟨read, _ | bad⟩ <;> simp

/-- Blanks around a path do not count. -/
theorem tokenize_trim_eq_ok_iff {path : String} {segments : List Segment} :
    tokenize (.ofList (Text.trim path.toList)) = .ok segments ↔ tokenize path = .ok segments := by
  rw [tokenize_eq_ok_iff, tokenize_eq_ok_iff, String.toList_ofList, pieces_trim]

theorem tokenize_eq_ok_nil_iff {path : String} :
    tokenize path = .ok [] ↔ pieces path.toList = [] := by
  rw [tokenize_eq_ok_iff]
  constructor
  · exact eq_nil_of_readPieces_eq_nil
  · intro empty
    simp [empty, readPieces]

theorem segments_eq_nil_iff {path : String} {segments : List Segment}
    (read : tokenize path = .ok segments) : segments = [] ↔ pieces path.toList = [] := by
  rw [← tokenize_eq_ok_nil_iff, read, Except.ok.injEq]

/-- A joined path can be read exactly if both parts can, and then it is one behind the other. -/
theorem tokenize_join_eq_ok_iff {first second : List Char} {segments : List Segment} :
    tokenize (.ofList (first ++ '.' :: second)) = .ok segments ↔
      ∃ before behind, tokenize (.ofList first) = .ok before ∧
        tokenize (.ofList second) = .ok behind ∧ segments = before ++ behind := by
  simp only [tokenize_eq_ok_iff, String.toList_ofList, pieces_append_dot, readPieces_append]
  constructor
  · intro joined
    rcases firstRead : readPieces (pieces first) with ⟨before, _ | bad⟩
    · rcases secondRead : readPieces (pieces second) with ⟨behind, _ | bad⟩
      · simp only [firstRead, secondRead, Prod.mk.injEq, and_true] at joined
        exact ⟨before, behind, rfl, rfl, joined.symm⟩
      · simp [firstRead, secondRead] at joined
    · simp [firstRead] at joined
  · rintro ⟨before, behind, firstRead, secondRead, rfl⟩
    simp [firstRead, secondRead]

section Left

/-- The pieces among what stands between dots. -/
def piecesAmong (parts : List (List Char)) : List (List Char) :=
  (parts.map Text.trim).filter (· ≠ [])

variable {part : List Char}

@[simp]
theorem piecesAmong_nil : piecesAmong [] = [] := rfl

theorem piecesAmong_cons_of_blank (blank : Text.trim part = []) (rest : List (List Char)) :
    piecesAmong (part :: rest) = piecesAmong rest := by
  simp [piecesAmong, blank]

theorem piecesAmong_cons_of_filled (filled : Text.trim part ≠ []) (rest : List (List Char)) :
    piecesAmong (part :: rest) = Text.trim part :: piecesAmong rest := by
  simp [piecesAmong, filled]

/-- What a call of a cursor between two pieces comes to: it has reached the end, or it has read the
first piece that is left. -/
inductive Cursor.Passes (path : String) (parts : List (List Char)) (consumed : List Segment) :
    Except Fault (Option Segment) × Cursor → Prop where
  | atEnd (nothing : piecesAmong parts = []) :
      Passes path parts consumed (.ok none, ⟨path, [], none, consumed, false⟩)
  | malformed {piece : List Char} {rest : List (List Char)} {bad : BadBracket}
      (left : piecesAmong parts = piece :: piecesAmong rest) (read : readPiece piece = .error bad) :
      Passes path parts consumed (.error (bad.fault path), ⟨path, rest, none, consumed, true⟩)
  | piece {piece : List Char} {rest : List (List Char)} {first : Segment} {second : Option Segment}
      (left : piecesAmong parts = piece :: piecesAmong rest)
      (read : readPiece piece = .ok (first, second)) :
      Passes path parts consumed
        (.ok (some first), ⟨path, rest, second, consumed ++ [first], false⟩)

theorem Cursor.Passes.behind_blank {path : String} {rest : List (List Char)}
    {consumed : List Segment} {answer : Except Fault (Option Segment) × Cursor}
    (passes : Passes path rest consumed answer) (blank : Text.trim part = []) :
    Passes path (part :: rest) consumed answer := by
  have same := piecesAmong_cons_of_blank blank rest
  cases passes with
  | atEnd nothing => exact .atEnd (same.trans nothing)
  | malformed left read => exact .malformed (same.trans left) read
  | piece left read => exact .piece (same.trans left) read

theorem Cursor.passes_advance (path : String) (held parts : List (List Char))
    (consumed : List Segment) :
    Passes path parts consumed (advance ⟨path, held, none, consumed, false⟩ parts) := by
  induction parts with
  | nil => exact .atEnd rfl
  | cons part rest ih =>
      rw [advance]
      dsimp only
      split
      · next blank => exact ih.behind_blank blank
      · next filled =>
        have left := piecesAmong_cons_of_filled filled rest
        cases read : readPiece (Text.trim part) with
        | error bad => exact .malformed left read
        | ok both => exact .piece left read

theorem Cursor.passes_next (path : String) (remaining : List (List Char))
    (consumed : List Segment) :
    Passes path remaining consumed (next ⟨path, remaining, none, consumed, false⟩) :=
  passes_advance path remaining remaining consumed

end Left

end Path

end ConfigTree
