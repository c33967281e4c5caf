import ConfigTree.Text.Basic
import Mathlib.Data.List.Basic

/-!
# The lines of joined texts

A text that is empty or ends with a line feed has whole lines only, so what stands
behind it begins a line of its own. A carriage return is the one character that looks
ahead: it belongs to the line end when a line feed follows.
-/

namespace ConfigTree.Text

@[simp]
theorem lines_nil : lines [] = [] := rfl

theorem lines_crlf (rest : List Char) : lines ('\r' :: '\n' :: rest) = [] :: lines rest := rfl

theorem lines_lf (rest : List Char) : lines ('\n' :: rest) = [] :: lines rest := by
  rw [lines]
  · rfl
  · simp

/-- A character that ends no line goes in front of the first line behind it. -/
theorem lines_cons {c : Char} {rest : List Char} (noFeed : c ≠ '\n')
    (noReturn : c = '\r' → rest.head? ≠ some '\n') :
    lines (c :: rest) =
      match lines rest with
      | [] => [[c]]
      | line :: more => (c :: line) :: more := by
  rw [lines]
  · exact if_neg noFeed
  · intro below isReturn isFeed
    subst isFeed
    exact noReturn isReturn rfl

theorem lines_eq_nil_iff {text : List Char} : lines text = [] ↔ text = [] := by
  constructor
  · intro empty
    unfold lines at empty
    split at empty
    · rfl
    · cases empty
    · split at empty
      · cases empty
      · split at empty <;> cases empty
  · rintro rfl
    rfl

/-- The text has no last line that lacks its line feed. -/
def EndsLine (text : List Char) : Prop :=
  text = [] ∨ text.getLast? = some '\n'

theorem EndsLine.tail {c : Char} {rest : List Char} (ends : EndsLine (c :: rest)) :
    EndsLine rest := by
  cases rest with
  | nil => exact .inl rfl
  | cons second more =>
      rcases ends with impossible | last
      · cases impossible
      · exact .inr (by simpa using last)

/-- Behind a text that ends with a line feed, lines go on as if nothing were in front. -/
theorem lines_append {first : List Char} (ends : EndsLine first) (second : List Char) :
    lines (first ++ second) = lines first ++ lines second := by
  fun_induction lines first with
  | case1 => rfl
  | case2 rest ih =>
      rw [List.cons_append, List.cons_append, lines_crlf, ih ends.tail.tail, List.cons_append]
  | case3 rest _ ih =>
      rw [List.cons_append, lines_lf, ih ends.tail, List.cons_append]
  | case4 c rest notCrlf noFeed empty ih =>
      -- A last line without its line feed: the text does not end like this.
      rw [lines_eq_nil_iff] at empty
      subst rest
      rcases ends with impossible | last
      · cases impossible
      · exact absurd (Option.some.inj last) noFeed
  | case5 c rest notCrlf noFeed line more isLines ih =>
      have filled : rest ≠ [] := by
        rintro rfl
        cases isLines
      have noReturn : c = '\r' → (rest ++ second).head? ≠ some '\n' := by
        intro isReturn
        rw [List.head?_append_of_ne_nil _ filled]
        intro feed
        rcases List.head?_eq_some_iff.mp feed with ⟨below, split⟩
        exact notCrlf below isReturn split
      have below := ih ends.tail
      rw [isLines] at below
      rw [List.cons_append, lines_cons noFeed noReturn, below]
      rfl

/-- A text without line feeds is one line. -/
theorem lines_of_no_feed {line : List Char} (noFeed : '\n' ∉ line) (filled : line ≠ []) :
    lines line = [line] := by
  induction line with
  | nil => exact absurd rfl filled
  | cons c rest ih =>
      rw [List.mem_cons, not_or] at noFeed
      have noReturn : c = '\r' → rest.head? ≠ some '\n' := by
        intro _ feed
        exact noFeed.2 (List.mem_of_head? feed)
      rw [lines_cons (Ne.symm noFeed.1) noReturn]
      by_cases isLast : rest = []
      · subst rest
        rfl
      · rw [ih noFeed.2 isLast]

/-- A text without line feeds that is ended by one is a line, unless a carriage return at its end
would be taken for a part of the line end. -/
theorem lines_concat_feed {line : List Char} (noFeed : '\n' ∉ line)
    (noReturn : line.getLast? ≠ some '\r') : lines (line ++ ['\n']) = [line] := by
  induction line with
  | nil => exact lines_lf []
  | cons c rest ih =>
      rw [List.mem_cons, not_or] at noFeed
      by_cases isLast : rest = []
      · subst rest
        have notReturn : c ≠ '\r' := by simpa using noReturn
        rw [List.cons_append, lines_cons (Ne.symm noFeed.1) (absurd · notReturn)]
        rfl
      · have restNoReturn : rest.getLast? ≠ some '\r' := by
          rcases List.exists_cons_of_ne_nil isLast with ⟨second, more, rfl⟩
          simpa using noReturn
        have begins : c = '\r' → (rest ++ ['\n']).head? ≠ some '\n' := by
          rw [List.head?_append_of_ne_nil _ isLast]
          intro _ feed
          exact noFeed.2 (List.mem_of_head? feed)
        rw [List.cons_append, lines_cons (Ne.symm noFeed.1) begins, ih noFeed.2 restNoReturn]

/-- A carriage return and a line feed behind a text without line feeds end it, whatever it ends
with. -/
theorem lines_concat_crlf {line : List Char} (noFeed : '\n' ∉ line) :
    lines (line ++ ['\r', '\n']) = [line] := by
  induction line with
  | nil => exact lines_crlf []
  | cons c rest ih =>
      rw [List.mem_cons, not_or] at noFeed
      have begins : c = '\r' → (rest ++ ['\r', '\n']).head? ≠ some '\n' := by
        intro _ feed
        have mem : '\n' ∈ rest ∨ '\n' = '\r' := by
          cases rest with
          | nil => simp at feed
          | cons second more => exact .inl (List.mem_of_head? feed)
        exact noFeed.2 (mem.resolve_right (by decide))
      rw [List.cons_append, lines_cons (Ne.symm noFeed.1) begins, ih noFeed.2]

/-- The two ways to end a line. -/
def lineEnds : List (List Char) :=
  [['\n'], ['\r', '\n']]

theorem endsLine_append {ending : List Char} (isEnd : ending ∈ lineEnds) (line : List Char) :
    EndsLine (line ++ ending) := by
  rcases List.mem_pair.mp isEnd with rfl | rfl
  · exact .inr List.getLast?_concat
  · exact .inr (by simp)

/-- A line is what stands in front of its end. Carriage returns there may count to the end. -/
theorem exists_lines_append {line ending : List Char} (noFeed : '\n' ∉ line)
    (isEnd : ending ∈ lineEnds) :
    ∃ kept returns, lines (line ++ ending) = [kept] ∧ line = kept ++ returns ∧
      ∀ c ∈ returns, c = '\r' := by
  rcases List.mem_pair.mp isEnd with rfl | rfl
  · by_cases noReturn : line.getLast? = some '\r'
    · rcases List.getLast?_eq_some_iff.mp noReturn with ⟨kept, rfl⟩
      refine ⟨kept, ['\r'], ?_, rfl, by simp⟩
      rw [List.append_assoc]
      exact lines_concat_crlf fun mem => noFeed (List.mem_append_left _ mem)
    · exact ⟨line, [], lines_concat_feed noFeed noReturn, by simp, by simp⟩
  · exact ⟨line, [], lines_concat_crlf noFeed, by simp, by simp⟩

/-- Lines as a text, each ended by a line feed. -/
def unlines (parts : List (List Char)) : List Char :=
  parts.flatMap (· ++ ['\n'])

/-- The text is a line that keeps its end wherever it stands. -/
structure IsLine (text : List Char) : Prop where
  noFeed : '\n' ∉ text
  noReturn : text.getLast? ≠ some '\r'

theorem lines_unlines {parts : List (List Char)} (areLines : ∀ part ∈ parts, IsLine part) :
    lines (unlines parts) = parts := by
  induction parts with
  | nil => rfl
  | cons part rest ih =>
      rw [List.forall_mem_cons] at areLines
      rcases areLines with ⟨isLine, restAreLines⟩
      have ends : EndsLine (part ++ ['\n']) := .inr (by simp)
      rw [unlines, List.flatMap_cons, lines_append ends,
        lines_concat_feed isLine.noFeed isLine.noReturn, List.singleton_append]
      exact congrArg (part :: ·) (ih restAreLines)

theorem endsLine_unlines (parts : List (List Char)) : EndsLine (unlines parts) := by
  rcases List.eq_nil_or_concat parts with rfl | ⟨before, last, rfl⟩
  · exact .inl rfl
  · exact .inr (by simp [unlines])

/-- The last line feed of a text does not count. -/
theorem lines_of_concat_feed_eq {text : List Char} {parts : List (List Char)}
    (written : text ++ ['\n'] = unlines parts) (areLines : ∀ part ∈ parts, IsLine part)
    (filled : ∀ part ∈ parts, part ≠ []) : lines text = parts := by
  rcases List.eq_nil_or_concat parts with rfl | ⟨before, last, rfl⟩
  · simp [unlines] at written
  · have split : text = unlines before ++ last := by
      refine List.append_cancel_right (written.trans ?_)
      simp [unlines]
    have beforeAreLines : ∀ part ∈ before, IsLine part := by
      intro part mem
      exact areLines part (by simp [mem])
    have lastIsLine := areLines last (by simp)
    rw [split, lines_append (endsLine_unlines before), lines_unlines beforeAreLines,
      lines_of_no_feed lastIsLine.noFeed (filled last (by simp)), List.concat_eq_append]

end ConfigTree.Text
