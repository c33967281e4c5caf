import ConfigTree.Proofs.Json.Strings

/-!
# The readers of arrays and objects, step by step

What the readers do with an element or a field in front of a comma or a closing bracket,
stated on what was read so far and on what is left, for any reader of what lies within.
-/

namespace ConfigTree

namespace Json

variable {item node : Node} {items : List Node} {name : String} {fields : List (String × Node)}
  {text row left behind rest : List Char} {closing : Char} {read : NodeReader}

/-- White space aside, a text begins with something else than a closing bracket. -/
def Filled (closing : Char) (text : List Char) : Prop :=
  ∃ c more, skipSpace text = c :: more ∧ c ≠ closing

theorem Filled.append (filled : Filled closing text) (rest : List Char) :
    Filled closing (text ++ rest) := by
  rcases filled with ⟨c, more, begins, notClosing⟩
  refine ⟨c, more ++ rest, ?_, notClosing⟩
  rw [skipSpace, List.dropWhile_append]
  rw [skipSpace] at begins
  simp [begins]

theorem filled_cons {c : Char} (filled : isSpace c = false) (notClosing : c ≠ closing)
    (text : List Char) : Filled closing (c :: text) :=
  ⟨c, text, skipSpace_cons filled text, notClosing⟩

theorem Spaced.filled {α : Type} {writes : List Char → α → Prop} {item : α}
    (written : Spaced writes text item)
    (filled : ∀ text, writes text item → Filled closing text) : Filled closing text := by
  cases written with
  | @around before text behind _ spacesBefore written _ =>
      rcases (filled text written).append behind with ⟨c, more, begins, notClosing⟩
      refine ⟨c, more, ?_, notClosing⟩
      rw [List.append_assoc, skipSpace_append spacesBefore, begins]

theorem Row.filled {α : Type} {writes : List Char → α → Prop} {items : List α}
    (written : Row writes row items)
    (filled : ∀ item ∈ items, ∀ text, writes text item → Filled closing text) :
    Filled closing row := by
  cases written with
  | last written => exact filled _ List.mem_cons_self _ written
  | more written others => exact (filled _ List.mem_cons_self _ written).append _

theorem readElements_last (first : Leaves (read text) item left)
    (closes : skipSpace left = ']' :: rest) : Leaves (readElements read text) [item] rest := by
  rw [readElements]
  apply first.bind
  intro taken isLeft
  rw [← isLeft] at closes
  dsimp only
  split
  · next ends => cases ends.symm.trans closes
  · next closed =>
    cases closed.symm.trans closes
    exact ⟨taken.andThen (.ofSkipSpace closed), rfl, rfl⟩
  · next goesOn => cases goesOn.symm.trans closes
  · next noBracket _ => exact absurd closes (noBracket rest)

theorem readElements_more (first : Leaves (read text) item left)
    (goesOn : skipSpace left = ',' :: behind) (filled : Filled ']' behind)
    (others : Leaves (readElements read behind) items rest) :
    Leaves (readElements read text) (item :: items) rest := by
  rw [readElements]
  apply first.bind
  intro taken isLeft
  rw [← isLeft] at goesOn
  dsimp only
  split
  · next ends => cases ends.symm.trans goesOn
  · next closed => cases closed.symm.trans goesOn
  · next comma =>
    cases comma.symm.trans goesOn
    rcases filled with ⟨c, more, begins, notClosing⟩
    split
    · next ends => cases ends.symm.trans begins
    · next closed =>
      cases closed.symm.trans begins
      exact absurd rfl notClosing
    · apply others.bind
      intro after isLeft'
      exact ⟨_, rfl, isLeft'⟩
  · next _ noComma => exact absurd goesOn (noComma behind)

theorem readList_empty (closes : skipSpace text = ']' :: rest) :
    Leaves (readList read text) (.array []) rest := by
  unfold readList
  split
  · next ends => cases ends.symm.trans closes
  · next closed =>
    cases closed.symm.trans closes
    exact ⟨.ofSkipSpace closed, rfl, rfl⟩
  · next noBracket => exact absurd closes (noBracket rest)

theorem readList_elements (filled : Filled ']' text)
    (elements : Leaves (readElements read text) items rest) :
    Leaves (readList read text) (.array items) rest := by
  rcases filled with ⟨c, more, begins, notClosing⟩
  unfold readList
  split
  · next ends => cases ends.symm.trans begins
  · next closed =>
    cases closed.symm.trans begins
    exact absurd rfl notClosing
  · apply elements.bind
    intro taken isLeft
    exact ⟨taken, rfl, isLeft⟩

/-- The reader of a name takes the colon behind it as well. -/
theorem readName_written {key spaces : List Char} (written : WritesString key name)
    (blank : Spaces spaces) (rest : List Char) :
    Leaves (readName (key ++ (spaces ++ ':' :: rest))) name rest := by
  cases written with
  | @quoted inner _ written =>
      have inQuotes := readString_written written (spaces ++ ':' :: rest)
      have text : '"' :: inner ++ ['"'] ++ (spaces ++ ':' :: rest) =
          '"' :: (inner ++ '"' :: (spaces ++ ':' :: rest)) := by
        simp
      rw [text, readName]
      apply inQuotes.bind
      intro taken isLeft
      have colon := exists_readColon blank rest
      rw [← isLeft] at colon
      rcases colon with ⟨after, isRead, isLeft'⟩
      refine ⟨(taken.andThen after).behind '"', ?_, isLeft'⟩
      simp only [isRead]
      change Except.ok (String.ofList name.toList, _) = _
      rw [String.ofList_toList]

theorem readFields_last {behindName : List Char}
    (key : Leaves (readName (skipSpace text)) name behindName)
    (value : Leaves (read behindName) node left) (closes : skipSpace left = '}' :: rest) :
    Leaves (readFields read text) [(name, node)] rest := by
  rw [readFields]
  apply key.bind
  intro keyTaken keyLeft
  rw [← keyLeft] at value
  apply value.bind
  intro taken isLeft
  rw [← isLeft] at closes
  dsimp only
  split
  · next ends => cases ends.symm.trans closes
  · next closed =>
    cases closed.symm.trans closes
    exact ⟨_, rfl, rfl⟩
  · next goesOn => cases goesOn.symm.trans closes
  · next noBrace _ => exact absurd closes (noBrace rest)

theorem readFields_more {behindName : List Char}
    (key : Leaves (readName (skipSpace text)) name behindName)
    (value : Leaves (read behindName) node left) (goesOn : skipSpace left = ',' :: behind)
    (filled : Filled '}' behind) (others : Leaves (readFields read behind) fields rest) :
    Leaves (readFields read text) ((name, node) :: fields) rest := by
  rw [readFields]
  apply key.bind
  intro keyTaken keyLeft
  rw [← keyLeft] at value
  apply value.bind
  intro taken isLeft
  rw [← isLeft] at goesOn
  dsimp only
  split
  · next ends => cases ends.symm.trans goesOn
  · next closed => cases closed.symm.trans goesOn
  · next comma =>
    cases comma.symm.trans goesOn
    rcases filled with ⟨c, more, begins, notClosing⟩
    split
    · next ends => cases ends.symm.trans begins
    · next closed =>
      cases closed.symm.trans begins
      exact absurd rfl notClosing
    · apply others.bind
      intro after isLeft'
      exact ⟨_, rfl, isLeft'⟩
  · next _ noComma => exact absurd goesOn (noComma behind)

theorem readObject_empty (closes : skipSpace text = '}' :: rest) :
    Leaves (readObject read text) (.object []) rest := by
  unfold readObject
  split
  · next ends => cases ends.symm.trans closes
  · next closed =>
    cases closed.symm.trans closes
    exact ⟨.ofSkipSpace closed, rfl, rfl⟩
  · next noBrace => exact absurd closes (noBrace rest)

theorem readObject_fields (filled : Filled '}' text)
    (members : Leaves (readFields read text) fields rest) :
    Leaves (readObject read text) (.object fields) rest := by
  rcases filled with ⟨c, more, begins, notClosing⟩
  unfold readObject
  split
  · next ends => cases ends.symm.trans begins
  · next closed =>
    cases closed.symm.trans begins
    exact absurd rfl notClosing
  · apply members.bind
    intro taken isLeft
    exact ⟨taken, rfl, isLeft⟩

end Json

end ConfigTree
