import ConfigTree.Proofs.Path.Stream

/-!
# Paths joined by a dot

A path is read by calling a cursor until it hands out no more. What the calls come to
is said by the items of the cursor alone, so reading a path is a matter of its pieces,
and the pieces of a joined path are those of its parts. No piece lies across the dot,
whatever stands on either side of it: the segments of the joined path are those of the
first part and then those of the second, and its fault is the fault of the first part
that cannot be read, with the joined path in place of this part.
-/

namespace ConfigTree

namespace BadBracket

variable {bad : BadBracket}

/-- All that the fault of a bracket has from the path as a whole is its text. -/
theorem exists_fault_eq (bad : BadBracket) :
    ∃ segment message hint code, ∀ path,
      bad.fault path = ⟨.pathSyntax path segment message, hint, code⟩ := by
  cases bad <;> exact ⟨_, _, _, _, fun _ => rfl⟩

theorem fault_eq_of_fault_eq {path segment message : String} {hint : Option String}
    {code : Option Nat} (quotes : bad.fault path = ⟨.pathSyntax path segment message, hint, code⟩)
    (path' : String) : bad.fault path' = ⟨.pathSyntax path' segment message, hint, code⟩ := by
  cases bad <;> cases quotes <;> rfl

end BadBracket

namespace Path

section Collect

/-- Calls a cursor until it hands out no more: all segments, or the fault that ends them. -/
def Cursor.collect (cursor : Cursor) : Except Fault (List Segment) :=
  match _handed : cursor.next with
  | (.error fault, _) => .error fault
  | (.ok none, _) => .ok []
  | (.ok (some segment), after) => do return segment :: (← after.collect)
termination_by cursor.size
decreasing_by exact Cursor.size_lt_of_next _handed

/-- What the calls come to is what the items of the cursor come to. -/
theorem Cursor.collect_eq_mapM_items (cursor : Cursor) :
    cursor.collect = cursor.items.mapM id := by
  fun_induction Cursor.collect cursor with
  | case1 cursor fault after handed =>
      have first := (next_items cursor).1
      rw [handed] at first
      rcases List.head?_eq_some_iff.mp first.symm with ⟨rest, items⟩
      rw [items]
      rfl
  | case2 cursor after handed =>
      have first := (next_items cursor).1
      rw [handed] at first
      rw [List.head?_eq_none_iff.mp first.symm]
      rfl
  | case3 cursor segment after handed ih =>
      have first := (next_items cursor).1
      have left := (next_items cursor).2.1
      rw [handed] at first left
      rcases List.head?_eq_some_iff.mp first.symm with ⟨rest, items⟩
      have behind : after.items = rest := by rw [left, items, List.tail_cons]
      rw [ih, behind, items, List.mapM_cons]
      rfl

theorem mapM_stream (segments : List Segment) (fault? : Option Fault) :
    (stream segments fault?).mapM id = fault?.elim (.ok segments) .error := by
  induction segments with
  | nil => cases fault? <;> rfl
  | cons segment rest ih =>
      have items : stream (segment :: rest) fault? = .ok segment :: stream rest fault? := rfl
      rw [items, List.mapM_cons, ih]
      cases fault? <;> rfl

/-- A path is read by a cursor in front of it. -/
theorem Cursor.collect_start (path : String) : (start path).collect = tokenize path := by
  have spells := (@spells_iff path (pieces path.toList) _ _).mpr ⟨rfl, rfl⟩
  rw [collect_eq_mapM_items, items_start spells, mapM_stream, tokenize]
  rcases readPieces (pieces path.toList) with ⟨segments, _ | bad⟩ <;> rfl

end Collect

theorem tokenize_eq_error_iff {path : String} {fault : Fault} :
    tokenize path = .error fault ↔
      ∃ bad, (readPieces (pieces path.toList)).2 = some bad ∧ bad.fault path = fault := by
  unfold tokenize
  rcases readPieces (pieces path.toList) with ⟨segments, _ | bad⟩ <;> simp

/-- Of two lists of pieces, the second is looked at only if the first can be read. -/
theorem readPieces_append_eq_malformed_iff {first second : List (List Char)} {bad : BadBracket} :
    (readPieces (first ++ second)).2 = some bad ↔
      (readPieces first).2 = some bad ∨
        (readPieces first).2 = none ∧ (readPieces second).2 = some bad := by
  rw [readPieces_append]
  rcases readPieces first with ⟨segments, _ | own⟩ <;> simp

theorem exists_tokenize_eq_ok_iff {path : String} :
    (∃ segments, tokenize path = .ok segments) ↔ (readPieces (pieces path.toList)).2 = none := by
  unfold tokenize
  rcases readPieces (pieces path.toList) with ⟨segments, _ | bad⟩ <;> simp

/-- Reading goes through a dot between two paths: the joined path reads as the segments of the first
and then those of the second. It cannot be read if one of them cannot, and its fault is the fault of
the first such path, of the same piece with the same text, hint and number. This is so for the calls
of a cursor, for they come to what the path is read as. -/
theorem tokenize_join (first second : String) :
    (∀ segments, tokenize (first ++ "." ++ second) = .ok segments ↔
      ∃ before behind, tokenize first = .ok before ∧ tokenize second = .ok behind ∧
        segments = before ++ behind) ∧
    (∀ fault, tokenize (first ++ "." ++ second) = .error fault ↔
      ∃ segment message hint code,
        (tokenize first = .error ⟨.pathSyntax first segment message, hint, code⟩ ∨
          (∃ before, tokenize first = .ok before) ∧
            tokenize second = .error ⟨.pathSyntax second segment message, hint, code⟩) ∧
        fault = ⟨.pathSyntax (first ++ "." ++ second) segment message, hint, code⟩) ∧
    ∀ path, (Cursor.start path).collect = tokenize path := by
  have joined : (first ++ "." ++ second).toList = first.toList ++ '.' :: second.toList := by simp
  refine ⟨?_, ?_, Cursor.collect_start⟩
  · intro segments
    rw [← String.ofList_toList (s := first ++ "." ++ second), joined, tokenize_join_eq_ok_iff,
      String.ofList_toList, String.ofList_toList]
  · intro fault
    rw [tokenize_eq_error_iff, joined, pieces_append_dot]
    simp only [readPieces_append_eq_malformed_iff]
    constructor
    · rintro ⟨bad, malformed, rfl⟩
      rcases bad.exists_fault_eq with ⟨segment, message, hint, code, quotes⟩
      refine ⟨segment, message, hint, code, ?_, quotes _⟩
      rcases malformed with inFirst | ⟨firstRead, inSecond⟩
      · exact .inl (tokenize_eq_error_iff.mpr ⟨bad, inFirst, quotes first⟩)
      · exact .inr ⟨exists_tokenize_eq_ok_iff.mpr firstRead,
          tokenize_eq_error_iff.mpr ⟨bad, inSecond, quotes second⟩⟩
    · rintro ⟨segment, message, hint, code, failed, rfl⟩
      rcases failed with inFirst | ⟨firstRead, inSecond⟩
      · rcases tokenize_eq_error_iff.mp inFirst with ⟨bad, malformed, quotes⟩
        exact ⟨bad, .inl malformed, BadBracket.fault_eq_of_fault_eq quotes _⟩
      · rcases tokenize_eq_error_iff.mp inSecond with ⟨bad, malformed, quotes⟩
        exact ⟨bad, .inr ⟨exists_tokenize_eq_ok_iff.mp firstRead, malformed⟩,
          BadBracket.fault_eq_of_fault_eq quotes _⟩

/-- Empty pieces at the dot are none, and brackets on either side of it do not meet. -/
example : tokenize (" a[0] ." ++ "." ++ ".[1]") = .ok [.key "a", .index 0, .index 1] := by decide

end Path

end ConfigTree
