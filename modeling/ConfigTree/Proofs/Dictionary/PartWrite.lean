import ConfigTree.Proofs.Dictionary.Part
import ConfigTree.Proofs.Node.Below
import ConfigTree.Proofs.Path.Names

/-!
# Writing in a part

A part is a copy, so a write in it does not reach the whole. The same write can be made
in the whole, at the joined path, and the part taken afterwards is then the one that was
written in. Names must lead to the part: a write does not go through positions, while a
part may well be taken at one.
-/

namespace ConfigTree.Dictionary

variable {dictionary part : Dictionary} {path : String} {names : List String}

/-- Where a path can be read, a node is found at it by stepping down its segments. -/
theorem locate_eq_ok_iff {segments : List Segment} {node : Node}
    (read : Path.tokenize path = .ok segments) :
    dictionary.locate path = .ok node ↔
      ∃ root, dictionary.root = some root ∧ root.reach segments = .ok node := by
  cases isRoot : dictionary.root with
  | none => simp [locate, isRoot]
  | some root =>
      have isAnswer := locate_eq_answer_of_root isRoot path
      rw [Path.tokenize_eq_ok_iff.mp read] at isAnswer
      have stepped := root.steps_eq_reach [] segments
      cases steps : root.steps [] segments with
      | ok found =>
          rw [steps] at isAnswer stepped
          simp [isAnswer, ← stepped, Node.answer]
      | error stopped =>
          rw [steps] at isAnswer stepped
          simp [isAnswer, ← stepped, Node.answer]

/-- The segments of the joined path are those of both paths. -/
theorem tokenize_join_eq_keys_iff (read : Path.tokenize path = .ok (names.map Segment.key))
    {behind : String} {keys : List String} :
    Path.tokenize (path ++ "." ++ behind) = .ok (keys.map Segment.key) ↔
      ∃ own : List String, Path.tokenize behind = .ok (own.map Segment.key) ∧
        keys = names ++ own := by
  have joined : path ++ "." ++ behind = .ofList (path.toList ++ '.' :: behind.toList) := by
    apply String.toList_injective
    simp
  rw [joined, Path.tokenize_join_eq_ok_iff]
  simp only [String.ofList_toList]
  constructor
  · rintro ⟨before, own, pathRead, ownRead, split⟩
    rcases List.map_eq_append_iff.mp split with ⟨first, ownKeys, rfl, rfl, rfl⟩
    exact ⟨ownKeys, ownRead, by rw [Path.keys_unique read pathRead]⟩
  · rintro ⟨own, ownRead, rfl⟩
    exact ⟨_, _, read, ownRead, List.map_append⟩

/-- Writing at a joined path is writing at the second path in the part at the first one: either
both writes fail, or the part of what the first leaves is what the second leaves. -/
theorem set_join_iff_set_part (read : Path.tokenize path = .ok (names.map Segment.key))
    (taken : dictionary.sub path = .ok part) (behind value : String) :
    ((∃ after, dictionary.set (path ++ "." ++ behind) value = .ok after) ↔
      ∃ changed, part.set behind value = .ok changed) ∧
    ∀ after changed, dictionary.set (path ++ "." ++ behind) value = .ok after →
      part.set behind value = .ok changed → after.sub path = .ok changed := by
  rcases of_sub_eq_ok taken with ⟨node, located, partRoot, partPolicy⟩
  rcases (locate_eq_ok_iff read).mp located with ⟨root, isRoot, reached⟩
  have joined := fun keys => @tokenize_join_eq_keys_iff path names read behind keys
  refine ⟨?_, ?_⟩
  · -- Both writes read the keys behind the path, and meet an array at the same key.
    rw [set, set, exists_write_eq_ok_iff, exists_write_eq_ok_iff, isRoot, partRoot]
    constructor
    · rintro ⟨keys, keysRead, writable⟩
      rcases (joined keys).mp keysRead with ⟨own, ownRead, rfl⟩
      exact ⟨own, ownRead, (Node.writable_append_iff reached).mp writable⟩
    · rintro ⟨own, ownRead, writable⟩
      exact ⟨names ++ own, (joined _).mpr ⟨own, ownRead, rfl⟩,
        (Node.writable_append_iff reached).mpr writable⟩
  · intro after changed written writtenInPart
    rcases of_write_eq_ok written with ⟨keys, keysRead, _, afterRoot, afterPolicy⟩
    rcases of_write_eq_ok writtenInPart with ⟨own, ownRead, _, changedRoot, changedPolicy⟩
    rcases (joined keys).mp keysRead with ⟨own', ownRead', rfl⟩
    have sameKeys : own' = own := Path.keys_unique ownRead' ownRead
    subst own'
    rw [isRoot] at afterRoot
    rw [partRoot] at changedRoot
    have reachedAfter := Node.reach_put_append (.value (some value)) own reached
    have locatedAfter := (locate_eq_ok_iff read).mpr ⟨_, afterRoot, reachedAfter⟩
    rcases exists_sub_eq_ok locatedAfter with ⟨partAfter, takenAfter, rootAfter, policyAfter⟩
    have same : partAfter = changed := by
      apply eq_of_root_eq
      · rw [rootAfter, changedRoot]
      · exact policyAfter.trans (afterPolicy.trans (partPolicy.symm.trans changedPolicy.symm))
    rw [takenAfter, same]

/-- Where a value gives way to an object, its place among the fields is the same on both ways, and
the array beside it stays. -/
theorem set_join_iff_set_part_value :
    Path.tokenize " m" = .ok (["m"].map Segment.key) ∧
      ∃ dictionary part after changed : Dictionary,
        dictionary.root = some (.object [("z", .null),
          ("m", .object [("y", .ofText "1"), ("a", .array [.null])])]) ∧
        dictionary.sub " m" = .ok part ∧
        dictionary.set (" m" ++ "." ++ "y..k") "2" = .ok after ∧
        part.set "y..k" "2" = .ok changed ∧ after.sub " m" = .ok changed ∧
        changed.root = some (.object [("y", .object [("k", .ofText "2")]),
          ("a", .array [.null])]) := by
  have read : Path.tokenize " m" = .ok (["m"].map Segment.key) := by decide
  generalize isWhole : ofNode (.object [("z", .null),
    ("m", .object [("y", .ofText "1"), ("a", .array [.null])])]) = dictionary
  have isRoot : dictionary.root = some (.object [("z", .null),
      ("m", .object [("y", .ofText "1"), ("a", .array [.null])])]) := by
    rw [← isWhole]
    rfl
  have located : dictionary.locate " m" =
      .ok (.object [("y", .ofText "1"), ("a", .array [.null])]) :=
    (locate_eq_ok_iff read).mpr ⟨_, isRoot, rfl⟩
  rcases exists_sub_eq_ok located with ⟨part, taken, partRoot, _⟩
  have writable : Node.Writable ["y", "k"] part.root := by
    rw [partRoot]
    simp [Node.Writable, Node.fieldsOf, Fields.get?, Node.ofText]
  have ownRead : Path.tokenize "y..k" = .ok (["y", "k"].map Segment.key) := by decide
  rcases exists_write_eq_ok (some "2") ownRead writable with ⟨changed, writtenInPart⟩
  rcases of_write_eq_ok writtenInPart with ⟨keys, keysRead, _, changedRoot, _⟩
  have commute := set_join_iff_set_part read taken "y..k" "2"
  rcases commute.1.mpr ⟨changed, writtenInPart⟩ with ⟨after, written⟩
  refine ⟨read, dictionary, part, after, changed, isRoot, taken, written, writtenInPart,
    commute.2 after changed written writtenInPart, ?_⟩
  rw [Path.keys_unique keysRead ownRead, partRoot] at changedRoot
  exact changedRoot

end ConfigTree.Dictionary
