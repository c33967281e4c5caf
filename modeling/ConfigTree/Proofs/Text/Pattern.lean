import Mathlib.Data.List.Forall2
import Mathlib.Data.List.Pairwise

/-!
# Patterns with greedy and lazy parts

A pattern is a sequence of parts, each a mark or a run of characters of one class. Many
cuts of a text can fit a pattern, and a matcher gives one of them. It goes from left to
right and tries the pieces for a part in an order: the longest first for a greedy run,
the shortest first for a lazy one. Where the rest of the text does not fit the rest of
the pattern, it goes back and tries the next piece.

What is found can be said without the matcher. Of all cuts that fit, it is the one that
is tried first, where two cuts are compared at the first part for which they differ. So
there is one such cut if there is any, and it can be found part by part: a greedy run
ends where the next character is not of its class, and a lazy run ends where the other
parts fit.
-/

namespace ConfigTree.Text

/-- The order in which pieces for a run are tried. -/
inductive Preference where
  | longestFirst
  | shortestFirst

/-- A part of a pattern. -/
inductive Part where
  /-- One character. -/
  | mark (c : Char)
  /-- Any number of characters of a class. -/
  | run (preference : Preference) (allowed : Char → Bool)

namespace Part

/-- The pieces that fit a part. -/
def Fits : Part → List Char → Prop
  | mark c, piece => piece = [c]
  | run _ allowed, piece => ∀ c ∈ piece, allowed c = true

instance : (part : Part) → (piece : List Char) → Decidable (part.Fits piece)
  | mark c, piece => inferInstanceAs (Decidable (piece = [c]))
  | run _ allowed, piece => decidable_of_iff (piece.all allowed = true) List.all_eq_true

/-- Whether one piece is tried before another. -/
def Before : Part → List Char → List Char → Prop
  | mark _, _, _ => False
  | run .longestFirst _, piece, other => other.length < piece.length
  | run .shortestFirst _, piece, other => piece.length < other.length

/-- The cuts of a text behind a run, the shortest one first. -/
def runs (allowed : Char → Bool) : List Char → List (List Char × List Char)
  | [] => [([], [])]
  | c :: rest =>
    ([], c :: rest) ::
      if allowed c then (runs allowed rest).map fun cut => (c :: cut.1, cut.2) else []

/-- The cuts of a text behind a part, in the order in which they are tried. -/
def cuts : Part → List Char → List (List Char × List Char)
  | mark _, [] => []
  | mark c, first :: rest => if first = c then [([c], rest)] else []
  | run .shortestFirst allowed, text => runs allowed text
  | run .longestFirst allowed, text => (runs allowed text).reverse

section Cuts

variable {part : Part} {allowed : Char → Bool} {text piece behind : List Char}

theorem mem_runs_iff :
    (piece, behind) ∈ runs allowed text ↔
      text = piece ++ behind ∧ ∀ c ∈ piece, allowed c = true := by
  induction text generalizing piece with
  | nil =>
      rw [runs, List.mem_singleton, Prod.mk.injEq, List.nil_eq_append_iff]
      constructor
      · rintro ⟨rfl, rfl⟩
        simp
      · exact And.left
  | cons c rest ih =>
      rw [runs, List.mem_cons, Prod.mk.injEq, List.mem_ite_nil_right, List.mem_map]
      constructor
      · rintro (⟨rfl, rfl⟩ | ⟨isAllowed, ⟨shorter, more⟩, mem, same⟩)
        · simp
        · cases same
          rcases ih.mp mem with ⟨rfl, allAllowed⟩
          exact ⟨rfl, List.forall_mem_cons.mpr ⟨isAllowed, allAllowed⟩⟩
      · rintro ⟨split, allAllowed⟩
        cases piece with
        | nil => exact .inl ⟨rfl, split.symm⟩
        | cons first shorter =>
            cases split
            rw [List.forall_mem_cons] at allAllowed
            exact .inr ⟨allAllowed.1, (shorter, behind), ih.mpr ⟨rfl, allAllowed.2⟩, rfl⟩

theorem runs_shortest_first (allowed : Char → Bool) (text : List Char) :
    (runs allowed text).Pairwise fun cut other => cut.1.length < other.1.length := by
  induction text with
  | nil => exact List.pairwise_singleton ..
  | cons c rest ih =>
      rw [runs, List.pairwise_cons]
      split
      · refine ⟨?_, List.pairwise_map.mpr ?_⟩
        · intro cut mem
          rcases List.mem_map.mp mem with ⟨shorter, _, rfl⟩
          exact Nat.succ_pos _
        · simpa using ih
      · simp

theorem mem_cuts_iff :
    (piece, behind) ∈ part.cuts text ↔ text = piece ++ behind ∧ part.Fits piece := by
  cases part with
  | mark c =>
      cases text with
      | nil =>
          rw [cuts, Fits]
          constructor
          · intro mem
            cases mem
          · rintro ⟨split, rfl⟩
            cases split
      | cons first rest =>
          rw [cuts, Fits, List.mem_ite_nil_right, List.mem_singleton, Prod.mk.injEq]
          constructor
          · rintro ⟨rfl, rfl, rfl⟩
            exact ⟨rfl, rfl⟩
          · rintro ⟨split, rfl⟩
            cases split
            exact ⟨rfl, rfl, rfl⟩
  | run preference allowed =>
      cases preference with
      | longestFirst => rw [cuts, List.mem_reverse, mem_runs_iff, Fits]
      | shortestFirst => rw [cuts, mem_runs_iff, Fits]

theorem cuts_in_order (part : Part) (text : List Char) :
    (part.cuts text).Pairwise fun cut other => part.Before cut.1 other.1 := by
  cases part with
  | mark c =>
      cases text with
      | nil => exact .nil
      | cons first rest =>
        rw [cuts]
        split <;> simp
  | run preference allowed =>
      cases preference with
      | longestFirst => exact List.pairwise_reverse.mpr (runs_shortest_first allowed text)
      | shortestFirst => exact runs_shortest_first allowed text

end Cuts

end Part

/-- The pieces that a matcher finds for the parts of a pattern. They have to take the whole text. -/
def findPieces : List Part → List Char → Option (List (List Char))
  | [], [] => some []
  | [], _ :: _ => none
  | part :: parts, text =>
    (part.cuts text).findSome? fun cut => (findPieces parts cut.2).map (cut.1 :: ·)

/-- A text is cut into pieces that fit the parts of a pattern one by one. -/
inductive Matches : List Part → List Char → List (List Char) → Prop where
  | nil : Matches [] [] []
  | cons {part : Part} {parts : List Part} {piece behind : List Char} {pieces : List (List Char)}
      (fits : part.Fits piece) (rest : Matches parts behind pieces) :
      Matches (part :: parts) (piece ++ behind) (piece :: pieces)

theorem matches_iff {parts : List Part} {text : List Char} {pieces : List (List Char)} :
    Matches parts text pieces ↔ List.Forall₂ Part.Fits parts pieces ∧ pieces.flatten = text := by
  constructor
  · intro isMatch
    induction isMatch with
    | nil => exact ⟨.nil, rfl⟩
    | cons fits rest ih => exact ⟨.cons fits ih.1, congrArg (_ ++ ·) ih.2⟩
  · rintro ⟨fits, rfl⟩
    induction fits with
    | nil => exact .nil
    | cons fits rest ih => exact .cons fits ih

instance (parts : List Part) (text : List Char) (pieces : List (List Char)) :
    Decidable (Matches parts text pieces) :=
  decidable_of_iff' _ matches_iff

/-- Whether pieces for the parts of a pattern are tried before others: at the first part for which
they differ, theirs is tried before the other one. -/
inductive TriedBefore : List Part → List (List Char) → List (List Char) → Prop where
  | here {part : Part} {parts : List Part} {piece other : List Char}
      {pieces others : List (List Char)} (before : part.Before piece other) :
      TriedBefore (part :: parts) (piece :: pieces) (other :: others)
  | later {part : Part} {parts : List Part} {piece : List Char}
      {pieces others : List (List Char)} (rest : TriedBefore parts pieces others) :
      TriedBefore (part :: parts) (piece :: pieces) (piece :: others)

/-- The pieces fit a pattern and are tried before all others that fit it. -/
structure Preferred (parts : List Part) (text : List Char) (pieces : List (List Char)) : Prop where
  isMatch : Matches parts text pieces
  first : ∀ others, Matches parts text others → others = pieces ∨ TriedBefore parts pieces others

variable {part : Part} {parts : List Part} {text piece behind : List Char}
  {pieces others : List (List Char)}

theorem Part.Before.asymm {other : List Char} (before : part.Before piece other) :
    ¬ part.Before other piece := by
  cases part with
  | mark c => cases before
  | run preference allowed =>
      cases preference with
      | longestFirst | shortestFirst => exact Nat.lt_asymm before

theorem TriedBefore.asymm (before : TriedBefore parts pieces others) :
    ¬ TriedBefore parts others pieces := by
  induction before with
  | here before =>
      rintro (after | _)
      · exact before.asymm after
      · exact before.asymm before
  | later rest ih =>
      rintro (after | after)
      · exact after.asymm after
      · exact ih after

/-- Going back leaves no cut out. -/
theorem findPieces_eq_none_iff :
    findPieces parts text = none ↔ ∀ pieces, ¬ Matches parts text pieces := by
  induction parts generalizing text with
  | nil =>
      cases text with
      | nil => simpa [findPieces] using ⟨[], .nil⟩
      | cons c rest =>
          refine ⟨fun _ pieces isMatch => ?_, fun _ => rfl⟩
          cases isMatch
  | cons part parts ih =>
      rw [findPieces, List.findSome?_eq_none_iff]
      constructor
      · intro untaken pieces isMatch
        cases isMatch with
        | @cons _ _ piece behind pieces fits rest =>
            have none := untaken (piece, behind) (Part.mem_cuts_iff.mpr ⟨rfl, fits⟩)
            exact ih.mp (Option.map_eq_none_iff.mp none) pieces rest
      · rintro noMatch ⟨piece, behind⟩ mem
        rcases Part.mem_cuts_iff.mp mem with ⟨rfl, fits⟩
        rw [Option.map_eq_none_iff, ih]
        intro pieces rest
        exact noMatch (piece :: pieces) (.cons fits rest)

/-- The pieces that are found are the preferred ones. -/
theorem preferred_of_findPieces (found : findPieces parts text = some pieces) :
    Preferred parts text pieces := by
  induction parts generalizing text pieces with
  | nil =>
      cases text with
      | nil =>
          cases found
          refine ⟨.nil, ?_⟩
          rintro others ⟨⟩
          exact .inl rfl
      | cons c rest => cases found
  | cons part parts ih =>
      rw [findPieces, List.findSome?_eq_some_iff] at found
      rcases found with ⟨before, ⟨piece, behind⟩, later, split, found, failed⟩
      rcases Option.map_eq_some_iff.mp found with ⟨rest, restFound, rfl⟩
      have isCut : (piece, behind) ∈ part.cuts text := by simp [split]
      rcases Part.mem_cuts_iff.mp isCut with ⟨rfl, fits⟩
      rcases ih restFound with ⟨isMatch, first⟩
      refine ⟨.cons fits isMatch, ?_⟩
      intro others otherMatch
      generalize isText : piece ++ behind = text at otherMatch split
      cases otherMatch with
      | @cons _ _ other otherBehind otherRest otherFits restMatch =>
          have mem : (other, otherBehind) ∈ part.cuts (other ++ otherBehind) :=
            Part.mem_cuts_iff.mpr ⟨rfl, otherFits⟩
          have inOrder := part.cuts_in_order (other ++ otherBehind)
          rw [split, List.pairwise_append, List.pairwise_cons] at inOrder
          rw [split, List.mem_append, List.mem_cons] at mem
          rcases mem with tried | same | untried
          · -- What was tried before the piece left a text that has no match.
            have noRest := Option.map_eq_none_iff.mp (failed _ tried)
            exact absurd restMatch (findPieces_eq_none_iff.mp noRest _)
          · cases same
            rcases first otherRest restMatch with rfl | triedBefore
            · exact .inl rfl
            · exact .inr (.later triedBefore)
          · exact .inr (.here (inOrder.2.1.1 _ untried))

theorem findPieces_eq_some_iff :
    findPieces parts text = some pieces ↔ Preferred parts text pieces := by
  constructor
  · exact preferred_of_findPieces
  · rintro ⟨isMatch, first⟩
    cases found : findPieces parts text with
    | none => exact absurd isMatch (findPieces_eq_none_iff.mp found pieces)
    | some own =>
        have preferred := preferred_of_findPieces found
        rcases first own preferred.isMatch with rfl | before
        · rfl
        · rcases preferred.first pieces isMatch with rfl | after
          · rfl
          · exact absurd after before.asymm

/-- A piece is found if it leaves a text for the other parts and no piece that is tried before it
does so. -/
theorem findPieces_cons (fits : part.Fits piece) (found : findPieces parts behind = some pieces)
    (first : ∀ earlier rest, piece ++ behind = earlier ++ rest → part.Fits earlier →
      part.Before earlier piece → findPieces parts rest = none) :
    findPieces (part :: parts) (piece ++ behind) = some (piece :: pieces) := by
  have mem : (piece, behind) ∈ part.cuts (piece ++ behind) := Part.mem_cuts_iff.mpr ⟨rfl, fits⟩
  rcases List.append_of_mem mem with ⟨before, later, split⟩
  have inOrder := part.cuts_in_order (piece ++ behind)
  rw [findPieces, List.findSome?_eq_some_iff]
  refine ⟨before, (piece, behind), later, split, by simp [found], ?_⟩
  rintro ⟨earlier, rest⟩ isBefore
  have isCut : (earlier, rest) ∈ part.cuts (piece ++ behind) := by simp [split, isBefore]
  rcases Part.mem_cuts_iff.mp isCut with ⟨whole, earlierFits⟩
  rw [split, List.pairwise_append] at inOrder
  have tried := inOrder.2.2 _ isBefore _ List.mem_cons_self
  rw [first earlier rest whole earlierFits tried]
  rfl

theorem findPieces_mark {c : Char} (found : findPieces parts behind = some pieces) :
    findPieces (.mark c :: parts) (c :: behind) = some ([c] :: pieces) := by
  have fits : (Part.mark c).Fits [c] := rfl
  apply findPieces_cons fits found
  intro earlier rest whole earlierFits before
  cases before

/-- A greedy run takes all that it can if the other parts fit what is behind. -/
theorem findPieces_greedy {allowed : Char → Bool} (fits : ∀ c ∈ piece, allowed c = true)
    (stops : ∀ c, behind.head? = some c → allowed c = false)
    (found : findPieces parts behind = some pieces) :
    findPieces (.run .longestFirst allowed :: parts) (piece ++ behind) =
      some (piece :: pieces) := by
  have runFits : (Part.run .longestFirst allowed).Fits piece := fits
  apply findPieces_cons runFits found
  intro earlier rest whole earlierFits longer
  have isLonger : piece.length < earlier.length := longer
  -- A longer piece would go on with the character at which this one stops.
  rcases List.append_eq_append_iff.mp whole with ⟨more, rfl, isBehind⟩ | ⟨more, isPiece, _⟩
  · cases more with
    | nil =>
        rw [List.append_nil] at isLonger
        exact absurd isLonger (Nat.lt_irrefl _)
    | cons c more =>
        have isAllowed := earlierFits c (by simp)
        rw [stops c (by simp [isBehind])] at isAllowed
        cases isAllowed
  · rw [isPiece, List.length_append] at isLonger
    omega

/-- A lazy run takes what the other parts leave to it and no more. -/
theorem findPieces_lazy {allowed : Char → Bool} (fits : ∀ c ∈ piece, allowed c = true)
    (needed : ∀ earlier more, piece = earlier ++ more → more ≠ [] →
      findPieces parts (more ++ behind) = none)
    (found : findPieces parts behind = some pieces) :
    findPieces (.run .shortestFirst allowed :: parts) (piece ++ behind) =
      some (piece :: pieces) := by
  have runFits : (Part.run .shortestFirst allowed).Fits piece := fits
  apply findPieces_cons runFits found
  intro earlier rest whole _ shorter
  have isShorter : earlier.length < piece.length := shorter
  rcases List.append_eq_append_iff.mp whole with ⟨more, rfl, _⟩ | ⟨more, isPiece, rfl⟩
  · rw [List.length_append] at isShorter
    omega
  · apply needed earlier more isPiece
    rintro rfl
    rw [isPiece, List.append_nil] at isShorter
    exact Nat.lt_irrefl _ isShorter

end ConfigTree.Text
