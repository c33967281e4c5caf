import ConfigTree.Proofs.Path.Names
import Mathlib.Data.List.Chain

/-!
# Paths that are rendered and read back

Rendering the segments of a path gives one of its many spellings. It is read in
runs: a run is a segment with the positions directly behind it, it is rendered
without a dot, and it becomes one piece. A piece hands out one position at most, and
none behind a bracket that it begins with, so only some runs come back. All else
about the segments follows from where they come from: `HandedOut` collects it.
-/

namespace ConfigTree

namespace Segment

/-- Rendered without a dot between them, two segments do not run together. -/
def Separates : Segment → Segment → Prop
  | .index _, .index _ => False
  | .key name, .index _ => name.toList.head? ≠ some '['
  | _, .key _ => True

/-- What a segment adds to a path that is not empty. -/
def behind : Segment → List Char
  | .key name => '.' :: name.toList
  | .index position => bracket position

theorem separates_index_iff {segment : Segment} {position : Nat} :
    segment.Separates (.index position) ↔ segment.text.toList.head? ≠ some '[' := by
  cases segment with
  | key name => rfl
  | index position =>
      rw [toList_text_index]
      simp [Separates, bracket]

theorem separates_key (segment : Segment) (name : String) : segment.Separates (.key name) := by
  cases segment <;> trivial

theorem writeBehind_empty (segment : Segment) : writeBehind "" segment = segment.text := by
  cases segment with
  | key name => rfl
  | index position =>
      change "" ++ "[" ++ toString position ++ "]" = "[" ++ toString position ++ "]"
      rw [String.empty_append]

theorem toList_writeBehind {path : String} (filled : path ≠ "") (segment : Segment) :
    (writeBehind path segment).toList = path.toList ++ segment.behind := by
  cases segment with
  | key name =>
      rw [writeBehind, if_neg filled]
      change (path ++ "." ++ name).toList = path.toList ++ '.' :: name.toList
      simp
  | index position =>
      change (path ++ "[" ++ toString position ++ "]").toList = path.toList ++ bracket position
      simp [bracket]

end Segment

namespace Path

open Segment (bracket)

theorem toList_foldl_writeBehind {path : String} (filled : path ≠ "") (segments : List Segment) :
    (segments.foldl Segment.writeBehind path).toList =
      path.toList ++ segments.flatMap Segment.behind := by
  induction segments generalizing path with
  | nil => simp
  | cons segment rest ih =>
      have longer : Segment.writeBehind path segment ≠ "" := by
        intro empty
        have written := Segment.toList_writeBehind filled segment
        rw [empty] at written
        simp [filled] at written
      rw [List.foldl_cons, ih longer, Segment.toList_writeBehind filled, List.flatMap_cons,
        List.append_assoc]

theorem toList_render_cons {first : Segment} (filled : first.text ≠ "") (rest : List Segment) :
    (render (first :: rest)).toList = first.text.toList ++ rest.flatMap Segment.behind := by
  rw [render, List.foldl_cons, Segment.writeBehind_empty, toList_foldl_writeBehind filled]

/-- A text that a piece can begin with. -/
structure BeginsPiece (text : List Char) : Prop where
  filled : text ≠ []
  noDot : '.' ∉ text
  noBlank : ∀ c, text.head? = some c → Text.isBlank c = false

theorem beginsPiece_of_mem_pieces {path piece : List Char} (mem : piece ∈ pieces path) :
    BeginsPiece piece := by
  rcases of_mem_pieces mem with ⟨filled, noDot, isTrimmed, _⟩
  refine ⟨filled, noDot, ?_⟩
  intro c first
  rw [← isTrimmed] at first
  exact Text.not_blank_of_head?_trim first

theorem beginsPiece_bracket (position : Nat) : BeginsPiece (bracket position) := by
  refine ⟨by simp [bracket], Segment.no_dot_in_bracket position, ?_⟩
  rintro c ⟨⟩
  rfl

theorem BeginsPiece.append {text : List Char} (begins : BeginsPiece text) {more : List Char}
    (noDot : '.' ∉ more) : BeginsPiece (text ++ more) := by
  refine ⟨by simp [begins.filled], ?_, ?_⟩
  · rw [List.mem_append, not_or]
    exact ⟨begins.noDot, noDot⟩
  · rw [List.head?_append_of_ne_nil _ begins.filled]
    exact begins.noBlank

theorem BeginsPiece.of_append {text more : List Char} (begins : BeginsPiece (text ++ more))
    (filled : text ≠ []) : BeginsPiece text := by
  refine ⟨filled, ?_, ?_⟩
  · exact fun dot => begins.noDot (List.mem_append_left more dot)
  · intro c first
    apply begins.noBlank
    rwa [List.head?_append_of_ne_nil _ filled]

/-- A text that ends in a bracket is one piece. -/
theorem pieces_append_bracket {text : List Char} {position : Nat}
    (begins : BeginsPiece (text ++ bracket position)) :
    pieces (text ++ bracket position) = [text ++ bracket position] := by
  have isTrimmed : Text.trim (text ++ bracket position) = text ++ bracket position := by
    apply Text.trim_eq_self begins.noBlank
    intro c last
    rw [Segment.getLast?_append_bracket] at last
    cases last
    rfl
  simp [pieces, List.splitOn_eq_singleton begins.noDot, isTrimmed, begins.filled]

/-- A position in brackets is a path of this position. -/
theorem tokenize_text_index {position : Nat} (small : position < UInt64.size) :
    tokenize (Segment.text (.index position)) = .ok [.index position] := by
  have single : pieces (bracket position) = [bracket position] :=
    @pieces_append_bracket [] position (beginsPiece_bracket position)
  rw [tokenize_eq_ok_iff, Segment.toList_text_index, single]
  simp [readPieces, readPiece_bracket small]

theorem of_tokenize_self {name : String} (ownName : tokenize name = .ok [.key name]) :
    pieces name.toList = [name.toList] ∧ readPiece name.toList = .ok (.key name, none) := by
  have keys : readPieces (pieces name.toList) = ([name].map Segment.key, none) :=
    tokenize_eq_ok_iff.mp ownName
  rcases of_readPieces_eq_keys keys with ⟨names, each⟩
  rcases List.map_eq_singleton_iff.mp names.symm with ⟨piece, isPiece, isName⟩
  rw [isPiece, List.forall_mem_singleton] at each
  rw [← isName, String.toList_ofList] at isPiece ⊢
  exact ⟨isPiece, each⟩

/-- What is known of segments that a path hands out. A name that is not one by itself was cut off
from a position. -/
def HandedOut : List Segment → Prop
  | [] => True
  | .index position :: rest => position < UInt64.size ∧ HandedOut rest
  | .key name :: rest =>
    BeginsPiece name.toList ∧
      (tokenize name = .ok [.key name] ∨ ∃ position, rest.head? = some (.index position)) ∧
      HandedOut rest

theorem handedOut_of_readPieces {path : List Char} {remaining : List (List Char)}
    (within : ∀ piece ∈ remaining, piece ∈ pieces path) :
    HandedOut (readPieces remaining).1 := by
  induction remaining with
  | nil => trivial
  | cons piece rest ih =>
      rw [List.forall_mem_cons] at within
      have handed := ih within.2
      have begins := beginsPiece_of_mem_pieces within.1
      rw [readPieces]
      cases read : readPiece piece with
      | error bad => trivial
      | ok segments =>
          rcases segments with ⟨first, second⟩
          rcases of_readPiece_eq_ok read with
            ⟨position, small, rfl, rfl⟩ |
            ⟨name, bracket, position, small, isPiece, head, rfl, rfl⟩ |
              ⟨rfl, rfl⟩
          · exact ⟨small, handed⟩
          · refine ⟨?_, .inr ⟨position, rfl⟩, small, handed⟩
            have filled : name ≠ [] := by
              rintro rfl
              simp [isPiece] at head
            rw [String.toList_ofList]
            rw [isPiece] at begins
            exact begins.of_append filled
          · refine ⟨by rwa [String.toList_ofList], .inl ?_, handed⟩
            rw [tokenize_eq_ok_iff, String.toList_ofList, pieces_of_mem_pieces within.1]
            simp [readPieces, read]

theorem handedOut_of_tokenize {path : String} {segments : List Segment}
    (read : tokenize path = .ok segments) : HandedOut segments := by
  have handed := @handedOut_of_readPieces path.toList (pieces path.toList) fun _ mem => mem
  rwa [tokenize_eq_ok_iff.mp read] at handed

theorem HandedOut.beginsPiece {first : Segment} {rest : List Segment}
    (handed : HandedOut (first :: rest)) : BeginsPiece first.text.toList := by
  cases first with
  | key name => exact handed.1
  | index position =>
      rw [Segment.toList_text_index]
      exact beginsPiece_bracket position

theorem HandedOut.tail {first : Segment} {rest : List Segment}
    (handed : HandedOut (first :: rest)) : HandedOut rest := by
  cases first with
  | key name => exact handed.2.2
  | index position => exact handed.2

theorem HandedOut.of_positions {positions : List Nat} {more : List Segment}
    (handed : HandedOut (positions.map .index ++ more)) :
    (∀ position ∈ positions, position < UInt64.size) ∧ HandedOut more := by
  induction positions with
  | nil => exact ⟨by simp, handed⟩
  | cons position rest ih =>
      rcases ih handed.2 with ⟨small, behind⟩
      refine ⟨?_, behind⟩
      rw [List.forall_mem_cons]
      exact ⟨handed.1, small⟩

section Run

/-- The text of a segment and of the positions behind it. -/
def run (first : Segment) (positions : List Nat) : List Char :=
  first.text.toList ++ positions.flatMap bracket

theorem run_concat (first : Segment) (positions : List Nat) (last : Nat) :
    run first (positions ++ [last]) = run first positions ++ bracket last := by
  simp [run]

theorem run_eq_text_iff {first : Segment} {positions : List Nat} :
    run first positions = first.text.toList ↔ positions = [] := by
  cases positions <;> simp [run, bracket]

theorem exists_run (segments : List Segment) :
    ∃ (positions : List Nat) (more : List Segment), segments = positions.map .index ++ more ∧
      ∀ position, more.head? ≠ some (.index position) := by
  induction segments with
  | nil => exact ⟨[], [], rfl, by simp⟩
  | cons segment rest ih =>
      cases segment with
      | key name => exact ⟨[], .key name :: rest, rfl, by simp⟩
      | index position =>
          rcases ih with ⟨positions, more, rfl, ends⟩
          exact ⟨position :: positions, more, rfl, ends⟩

/-- The last position of a run is read alone, and all before it is taken for a name; but not behind
a bracket at the beginning. -/
theorem readPiece_run_concat {first : Segment} (filled : first.text.toList ≠ [])
    (before : List Nat) {last : Nat} (small : last < UInt64.size) :
    (¬first.Separates (.index last) ∧
      ∃ bad, readPiece (run first (before ++ [last])) = .error bad) ∨
      first.Separates (.index last) ∧ readPiece (run first (before ++ [last])) =
        .ok (.key (.ofList (run first before)), some (.index last)) := by
  have head : (run first before).head? = first.text.toList.head? :=
    List.head?_append_of_ne_nil _ filled
  have runFilled : run first before ≠ [] := by simp [run, filled]
  rw [run_concat, Segment.separates_index_iff, ← head, not_not]
  by_cases begins : (run first before).head? = some '['
  · exact .inl ⟨begins, readPiece_append_bracket_of_head begins last⟩
  · exact .inr ⟨begins, readPiece_append_bracket runFilled begins small⟩

variable {first : Segment} {positions : List Nat} {more : List Segment}
  (handed : HandedOut (first :: (positions.map .index ++ more)))
  (ends : ∀ position, more.head? ≠ some (.index position))

include handed

theorem beginsPiece_run : BeginsPiece (run first positions) := by
  apply handed.beginsPiece.append
  intro dot
  rcases List.mem_flatMap.mp dot with ⟨position, _, mem⟩
  exact Segment.no_dot_in_bracket position mem

include ends

/-- A segment with no position behind it is read as it is rendered. -/
theorem read_run_of_nil (alone : positions = []) :
    pieces (run first positions) = [run first positions] ∧
      readPiece (run first positions) = .ok (first, none) := by
  subst alone
  rw [run, List.flatMap_nil, List.append_nil]
  cases first with
  | index position =>
      rw [Segment.toList_text_index]
      refine ⟨?_, readPiece_bracket handed.1⟩
      exact @pieces_append_bracket [] position (beginsPiece_bracket position)
  | key name =>
      rcases handed.2.1 with ownName | ⟨position, impossible⟩
      · exact of_tokenize_self ownName
      · cases ends position impossible

/-- A run is one piece of the rendered path. -/
theorem pieces_run : pieces (run first positions) = [run first positions] := by
  rcases List.eq_nil_or_concat positions with alone | ⟨before, last, isConcat⟩
  · exact (read_run_of_nil handed ends alone).1
  · have begins := beginsPiece_run handed
    rw [isConcat, List.concat_eq_append, run_concat] at begins ⊢
    exact pieces_append_bracket begins

theorem pieces_render : pieces (render (first :: (positions.map .index ++ more))).toList =
    run first positions :: pieces (render more).toList := by
  have filled : first.text ≠ "" := by
    have begins := handed.beginsPiece.filled
    simpa using begins
  have brackets : (positions.map Segment.index).flatMap Segment.behind =
      positions.flatMap bracket := by
    rw [List.flatMap_map]
    rfl
  rw [toList_render_cons filled, List.flatMap_append, brackets, ← List.append_assoc]
  change pieces (run first positions ++ more.flatMap Segment.behind) = _
  cases more with
  | nil =>
      rw [List.flatMap_nil, List.append_nil, pieces_run handed ends]
      rfl
  | cons next rest =>
      cases next with
      | index position => cases ends position rfl
      | key name =>
          have keyFilled : (Segment.key name).text ≠ "" := by
            have begins := handed.tail.of_positions.2.beginsPiece.filled
            simpa using begins
          rw [toList_render_cons keyFilled, List.flatMap_cons, Segment.behind, List.cons_append,
            pieces_append_dot, pieces_run handed ends]
          rfl

/-- A run comes back exactly if it has at most one position and keeps it apart. -/
theorem readPieces_run_iff {remaining : List (List Char)} :
    readPieces (run first positions :: remaining) =
        (first :: (positions.map .index ++ more), none) ↔
      (positions = [] ∨ ∃ last, positions = [last] ∧ first.Separates (.index last)) ∧
        readPieces remaining = (more, none) := by
  rcases List.eq_nil_or_concat positions with alone | ⟨before, last, isConcat⟩
  · have read := (read_run_of_nil handed ends alone).2
    rw [readPieces, read, alone]
    simp [Prod.ext_iff]
  · rw [List.concat_eq_append] at isConcat
    have small : last < UInt64.size := by
      apply handed.tail.of_positions.1
      simp [isConcat]
    have single : (before ++ [last] = [] ∨
        ∃ other, before ++ [last] = [other] ∧ first.Separates (.index other)) ↔
          before = [] ∧ first.Separates (.index last) := by
      cases before <;> simp
    rw [isConcat, single, readPieces]
    rcases readPiece_run_concat handed.beginsPiece.filled before small with
      ⟨together, bad, spoiled⟩ | ⟨separates, read⟩
    · simp [spoiled, together]
    · have isFirst : .key (.ofList (run first before)) = first ↔ before = [] := by
        cases first with
        | index position => cases separates
        | key name =>
            rw [← run_eq_text_iff, Segment.key.injEq, ← String.toList_inj, String.toList_ofList]
            rfl
      rw [read]
      simp only [Prod.ext_iff, Option.toList_some, List.cons_append, List.nil_append,
        List.cons.injEq, isFirst]
      constructor
      · rintro ⟨⟨rfl, behind⟩, bad⟩
        rw [List.nil_append, List.map_singleton, List.singleton_append, List.cons.injEq] at behind
        exact ⟨⟨rfl, separates⟩, behind.2, bad⟩
      · rintro ⟨⟨rfl, _⟩, behind, bad⟩
        simp [behind, bad]

end Run

/-- Segments behind a run are kept apart from it. -/
theorem isChain_run_iff {first : Segment} {positions : List Nat} {more : List Segment}
    (ends : ∀ position, more.head? ≠ some (.index position)) :
    (first :: (positions.map .index ++ more)).IsChain Segment.Separates ↔
      (positions = [] ∨ ∃ last, positions = [last] ∧ first.Separates (.index last)) ∧
        more.IsChain Segment.Separates := by
  have apart : ∀ segment : Segment,
      (segment :: more).IsChain Segment.Separates ↔ more.IsChain Segment.Separates := by
    intro segment
    rw [List.isChain_cons, and_iff_right]
    intro next isNext
    cases next with
    | index position => cases ends position isNext
    | key name => exact segment.separates_key name
  rcases positions with _ | ⟨position, _ | ⟨second, rest⟩⟩
  · simp [apart]
  · simp [List.isChain_cons_cons, apart]
  · simp [List.isChain_cons_cons, Segment.Separates]

/-- A rendered path comes back exactly if no position runs together with what is in front of it. -/
theorem tokenize_render_iff {segments : List Segment} (handed : HandedOut segments) :
    tokenize (render segments) = .ok segments ↔ segments.IsChain Segment.Separates := by
  rw [tokenize_eq_ok_iff]
  induction size : segments.length using Nat.strong_induction_on generalizing segments with
  | _ length ih =>
      cases segments with
      | nil => simp [render, readPieces]
      | cons first rest =>
          rcases exists_run rest with ⟨positions, more, rfl, ends⟩
          rw [pieces_render handed ends, readPieces_run_iff handed ends, isChain_run_iff ends]
          have shorter : more.length < length := by
            rw [← size, List.length_cons, List.length_append]
            omega
          rw [ih more.length shorter handed.tail.of_positions.2 rfl]

/-- Without its dots, an element of an element is taken for an element of another name. -/
example : tokenize "m.[0].[1]" = .ok [.key "m", .index 0, .index 1] ∧
    tokenize (render [.key "m", .index 0, .index 1]) = .ok [.key "m[0]", .index 1] := by
  decide +kernel

end Path

end ConfigTree
