import ConfigTree.Proofs.Path.Brackets

/-!
# Names that name themselves

A name that a path hands out can be written as a path again, except where it was
cut off from a position in brackets. A path that consists of names only has no
such place, so its names name themselves: each of them is a piece, and a piece
has no dot, no blanks at its ends and at least one character. Names of this kind
can be joined by dots, and the joined path hands them out again.

A text without a closing bracket has no positions, so it always consists of
names.
-/

namespace ConfigTree

namespace Path

/-- A path reads as one list of names only. -/
theorem keys_unique {path : String} {keys keys' : List String}
    (read : tokenize path = .ok (keys.map Segment.key))
    (read' : tokenize path = .ok (keys'.map Segment.key)) : keys = keys' := by
  have same : keys.map Segment.key = keys'.map Segment.key :=
    Except.ok.inj (read.symm.trans read')
  exact List.map_injective_iff.mpr (fun _ _ => Segment.key.inj) same

theorem of_mem_splitOn {path part : List Char} (mem : part ∈ path.splitOn '.') :
    '.' ∉ part ∧ ∀ c ∈ part, c ∈ path := by
  induction path generalizing part with
  | nil =>
      rw [List.splitOn_nil, List.mem_singleton] at mem
      simp [mem]
  | cons first rest ih =>
      rw [List.splitOn_cons_eq_if_modifyHead] at mem
      by_cases dot : first = '.'
      · simp only [dot, beq_self_eq_true, if_true, List.mem_cons] at mem
        rcases mem with rfl | later
        · simp
        · rcases ih later with ⟨noDot, within⟩
          exact ⟨noDot, fun c c_mem => List.mem_cons_of_mem _ (within c c_mem)⟩
      · rcases List.exists_cons_of_ne_nil (List.splitOn_ne_nil '.' rest) with ⟨head, tail, split⟩
        simp only [split, beq_iff_eq, dot, if_false, List.modifyHead_cons, List.mem_cons] at mem
        rcases mem with rfl | later
        · rcases @ih head (by simp [split]) with ⟨noDot, within⟩
          refine ⟨by simp [noDot, Ne.symm dot], ?_⟩
          intro c c_mem
          rcases List.mem_cons.mp c_mem with rfl | c_later
          · simp
          · exact List.mem_cons_of_mem _ (within c c_later)
        · rcases @ih part (by simp [split, later]) with ⟨noDot, within⟩
          exact ⟨noDot, fun c c_mem => List.mem_cons_of_mem _ (within c c_mem)⟩

theorem of_mem_pieces {path piece : List Char} (mem : piece ∈ pieces path) :
    piece ≠ [] ∧ '.' ∉ piece ∧ Text.trim piece = piece ∧ ∀ c ∈ piece, c ∈ path := by
  simp only [pieces, ne_eq, decide_not, List.mem_filter, List.mem_map, Bool.not_eq_eq_eq_not,
    Bool.not_true, decide_eq_false_iff_not] at mem
  rcases mem with ⟨⟨part, part_mem, rfl⟩, filled⟩
  rcases of_mem_splitOn part_mem with ⟨noDot, within⟩
  refine ⟨filled, ?_, Text.trim_trim part, ?_⟩
  · exact fun dot => noDot (Text.mem_of_mem_trim dot)
  · exact fun c c_mem => within c (Text.mem_of_mem_trim c_mem)

theorem pieces_of_mem_pieces {path piece : List Char} (mem : piece ∈ pieces path) :
    pieces piece = [piece] := by
  rcases of_mem_pieces mem with ⟨filled, noDot, isTrimmed, _⟩
  simp [pieces, List.splitOn_eq_singleton noDot, isTrimmed, filled]

/-- Pieces that read as names only read as themselves. -/
theorem of_readPieces_eq_keys {remaining : List (List Char)} {keys : List String}
    (read : readPieces remaining = (keys.map Segment.key, none)) :
    keys = remaining.map String.ofList ∧
      ∀ piece ∈ remaining, readPiece piece = .ok (.key (.ofList piece), none) := by
  induction remaining generalizing keys with
  | nil =>
      cases keys with
      | nil => simp
      | cons key rest => simp [readPieces] at read
  | cons piece rest ih =>
      simp only [readPieces] at read
      cases first : readPiece piece with
      | error bad => simp [first] at read
      | ok segments =>
          rcases segments with ⟨segment, position⟩
          simp only [first, Prod.mk.injEq] at read
          rcases read with ⟨segments, noBad⟩
          cases keys with
          | nil => simp at segments
          | cons key keys =>
              simp only [List.map_cons, List.cons_append, List.cons.injEq] at segments
              rcases segments with ⟨rfl, behind⟩
              rcases of_readPiece_eq_ok first with
                ⟨_, _, impossible, _⟩ | ⟨_, _, _, _, _, _, _, rfl⟩ | ⟨isPiece, rfl⟩
              · cases impossible
              · -- The position behind the name would be among the names.
                cases keys <;> simp at behind
              · cases isPiece
                have restRead : readPieces rest = (keys.map Segment.key, none) := by
                  rw [← noBad, ← behind]
                  rfl
                rcases ih restRead with ⟨rfl, each⟩
                refine ⟨rfl, ?_⟩
                rw [List.forall_mem_cons]
                exact ⟨first, each⟩

theorem readPieces_of_keys {remaining : List (List Char)}
    (each : ∀ piece ∈ remaining, readPiece piece = .ok (.key (.ofList piece), none)) :
    readPieces remaining = ((remaining.map String.ofList).map Segment.key, none) := by
  induction remaining with
  | nil => rfl
  | cons piece rest ih =>
      rw [List.forall_mem_cons] at each
      simp [readPieces, each.1, ih each.2]

/-- A path that consists of names only hands out names that name themselves. -/
theorem tokenize_key_of_mem {path : String} {keys : List String}
    (read : tokenize path = .ok (keys.map Segment.key)) {key : String} (mem : key ∈ keys) :
    tokenize key = .ok [.key key] := by
  rcases of_readPieces_eq_keys (tokenize_eq_ok_iff.mp read) with ⟨rfl, each⟩
  rcases List.mem_map.mp mem with ⟨piece, piece_mem, rfl⟩
  rw [tokenize_eq_ok_iff, String.toList_ofList, pieces_of_mem_pieces piece_mem]
  simp [readPieces, each piece piece_mem]

/-- Names that name themselves can be joined by dots. -/
theorem tokenize_intercalate {keys : List String}
    (each : ∀ key ∈ keys, tokenize key = .ok [.key key]) :
    tokenize (String.intercalate "." keys) = .ok (keys.map Segment.key) := by
  induction keys with
  | nil => rw [String.intercalate_nil, tokenize_eq_ok_iff]; simp [readPieces]
  | cons key rest ih =>
      rw [List.forall_mem_cons] at each
      cases rest with
      | nil => rw [String.intercalate_singleton, each.1, List.map_singleton]
      | cons second more =>
          have joined : String.intercalate "." (key :: second :: more) =
              .ofList (key.toList ++ '.' ::
                (String.intercalate "." (second :: more)).toList) := by
            rw [String.intercalate_cons_cons]
            apply String.toList_injective
            simp
          rw [joined, tokenize_join_eq_ok_iff]
          refine ⟨[.key key], (second :: more).map Segment.key, ?_, ?_, rfl⟩
          · rw [String.ofList_toList, each.1]
          · rw [String.ofList_toList, ih each.2]

theorem tokenize_of_no_bracket {path : List Char} (free : ']' ∉ path) :
    tokenize (.ofList path) =
      .ok (((pieces path).map String.ofList).map Segment.key) := by
  rw [tokenize_eq_ok_iff, String.toList_ofList]
  apply readPieces_of_keys
  intro piece mem
  exact readPiece_of_no_bracket fun bracket => free ((of_mem_pieces mem).2.2.2 _ bracket)

end Path

end ConfigTree
