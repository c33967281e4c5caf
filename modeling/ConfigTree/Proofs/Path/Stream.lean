import ConfigTree.Path.Cursor
import ConfigTree.Proofs.Fault.Family
import ConfigTree.Proofs.Path.Brackets

/-!
# Reading a path one call at a time

What a path means is said here without a reader: what stands between brackets is a
position or has a fault, a piece is a position, a name with a position behind it or a
name, and pieces mean what each of them means, up to the first malformed one.

A cursor hands this out call by call. `Cursor.items` is all that a cursor will still
hand out, with the second segment of the piece read last in front. A call hands out
the first of these items and leaves the others, and what holds after any number of
calls follows from this one step by induction.
-/

namespace ConfigTree

namespace Path

/-- What stands between brackets in a path: a position, or something with a fault. -/
inductive Bracketed (path : String) : List Char → Except Fault Nat → Prop where
  | position {digits : List Char} {position : Nat} (denotes : Decimal.Denotes digits position)
      (small : position < UInt64.size) : Bracketed path digits (.ok position)
  | empty :
      Bracketed path [] (.error
        { kind := .pathSyntax path "[]" "Empty array index"
          hint := some "Put a non-negative integer between the brackets, e.g. [0]"
          code := some 101 })
  | notDigits {inner : List Char} {c : Char} (mem : c ∈ inner) (noDigit : c.isDigit = false) :
      Bracketed path inner (.error
        { kind := .pathSyntax path s!"[{String.ofList inner}]"
            s!"Array index '{String.ofList inner}' is not a non-negative integer"
          hint := some "Only digits are allowed between the brackets"
          code := some 102 })
  | tooLarge {digits : List Char} {position : Nat} (denotes : Decimal.Denotes digits position)
      (large : UInt64.size ≤ position) :
      Bracketed path digits (.error
        { kind := .pathSyntax path s!"[{String.ofList digits}]"
            ("Array index '" ++ String.ofList digits ++
              "' is out of range: number too large to fit in target type")
          code := some 103 })

/-- What a piece of a path means: its segments, or the fault of its brackets. Of the brackets behind
a name only the last pair counts. -/
inductive Means (path : String) : List Char → Except Fault (List Segment) → Prop where
  | position {inner : List Char} {result : Except Fault Nat}
      (bracketed : Bracketed path inner result) :
      Means path ('[' :: inner ++ [']']) (result.map fun position => [.index position])
  | element {name inner : List Char} {result : Except Fault Nat} (filled : name ≠ [])
      (begins : name.head? ≠ some '[') (last : '[' ∉ inner)
      (bracketed : Bracketed path inner result) :
      Means path (name ++ '[' :: inner ++ [']'])
        (result.map fun position => [.key (.ofList name), .index position])
  | name {piece : List Char}
      (plain : piece.getLast? ≠ some ']' ∨ piece.head? ≠ some '[' ∧ '[' ∉ piece) :
      Means path piece (.ok [.key (.ofList piece)])

/-- What pieces of a path mean: the segments of all pieces in front of the first malformed one, and
the fault of that piece. -/
inductive Spells (path : String) : List (List Char) → List Segment → Option Fault → Prop where
  | nil : Spells path [] [] none
  | cons {piece : List Char} {rest : List (List Char)} {first segments : List Segment}
      {fault? : Option Fault} (means : Means path piece (.ok first))
      (behind : Spells path rest segments fault?) :
      Spells path (piece :: rest) (first ++ segments) fault?
  | malformed {piece : List Char} {rest : List (List Char)} {fault : Fault}
      (means : Means path piece (.error fault)) : Spells path (piece :: rest) [] (some fault)

variable {path : String}

theorem Bracketed.readPosition_eq {inner : List Char} {result : Except Fault Nat}
    (bracketed : Bracketed path inner result) :
    (readPosition inner).mapError (·.fault path) = result := by
  cases bracketed with
  | position denotes small => rw [readPosition_of_denotes denotes, if_pos small]; rfl
  | empty => rfl
  | notDigits mem noDigit => rw [readPosition_of_mem mem noDigit]; rfl
  | tooLarge denotes large =>
      rw [readPosition_of_denotes denotes, if_neg (Nat.not_lt.mpr large)]
      rfl

theorem exists_bracketed (path : String) (inner : List Char) :
    ∃ result, Bracketed path inner result := by
  rcases Decidable.em (∃ c ∈ inner, c.isDigit = false) with ⟨c, mem, noDigit⟩ | allDigits
  · exact ⟨_, .notDigits mem noDigit⟩
  · cases inner with
    | nil => exact ⟨_, .empty⟩
    | cons first rest =>
        have denotes : Decimal.Denotes (first :: rest) (Decimal.ofDigits (first :: rest)) := by
          refine Decimal.denotes_iff.mpr ⟨by simp, ?_, rfl⟩
          simpa using allDigits
        rcases Nat.lt_or_ge (Decimal.ofDigits (first :: rest)) UInt64.size with small | large
        · exact ⟨_, .position denotes small⟩
        · exact ⟨_, .tooLarge denotes large⟩

/-- The segments or the fault of a piece, as it is read. -/
def meaning (path : String) (piece : List Char) : Except Fault (List Segment) :=
  ((readPiece piece).mapError (·.fault path)).map fun segments =>
    segments.1 :: segments.2.toList

theorem Means.meaning_eq {piece : List Char} {result : Except Fault (List Segment)}
    (means : Means path piece result) : meaning path piece = result := by
  cases means with
  | @position inner result bracketed =>
      have last : ('[' :: inner ++ [']']).getLast? = some ']' := List.getLast?_concat
      have first : ('[' :: inner ++ [']']).head? = some '[' := rfl
      have within : ('[' :: inner ++ [']']).tail.dropLast = inner := by simp
      rw [meaning, readPiece, if_pos last, if_pos first, within, ← bracketed.readPosition_eq]
      cases readPosition inner <;> rfl
  | @element name inner result filled begins noBracket bracketed =>
      have last : (name ++ '[' :: inner ++ [']']).getLast? = some ']' := List.getLast?_concat
      have first : (name ++ '[' :: inner ++ [']']).head? ≠ some '[' := by
        rwa [List.append_assoc, List.head?_append_of_ne_nil _ filled]
      have cut : cutAtLast '[' (name ++ '[' :: inner ++ [']']) = some (name, inner ++ [']']) := by
        rw [List.append_assoc, List.cons_append]
        apply cutAtLast_append
        simp [noBracket]
      rw [meaning, readPiece, if_pos last, if_neg first, cut, ← bracketed.readPosition_eq]
      dsimp only
      rw [List.dropLast_concat]
      cases readPosition inner <;> rfl
  | name plain =>
      have read : readPiece piece = .ok (.key (.ofList piece), none) := by
        rw [readPiece]
        split
        · next last =>
          rcases plain with noEnd | ⟨begins, free⟩
          · exact absurd last noEnd
          · have nowhere : cutAtLast '[' piece = none := by
              cases cut : cutAtLast '[' piece with
              | none => rfl
              | some parts =>
                  rw [of_cutAtLast_eq_some cut] at free
                  simp at free
            rw [if_neg begins, nowhere]
        · rfl
      rw [meaning, read]
      rfl

theorem exists_means (path : String) (piece : List Char) : ∃ result, Means path piece result := by
  by_cases ends : piece.getLast? = some ']'
  · rcases List.getLast?_eq_some_iff.mp ends with ⟨front, rfl⟩
    by_cases begins : front.head? = some '['
    · rcases List.head?_eq_some_iff.mp begins with ⟨inner, rfl⟩
      rcases exists_bracketed path inner with ⟨result, bracketed⟩
      exact ⟨_, .position bracketed⟩
    · by_cases mem : '[' ∈ front
      · -- The last bracket of the piece is the first one from behind.
        rcases List.eq_append_cons_of_mem (List.mem_reverse.mpr mem) with
          ⟨inner, name, backwards, last⟩
        have split : front = name.reverse ++ '[' :: inner.reverse := by
          rw [← List.reverse_reverse front, backwards]
          simp
        have filled : name.reverse ≠ [] := by
          intro empty
          rw [split, empty] at begins
          exact begins rfl
        rw [split, List.head?_append_of_ne_nil _ filled] at begins
        rcases exists_bracketed path inner.reverse with ⟨result, bracketed⟩
        rw [split]
        exact ⟨_, .element filled begins (by simpa using last) bracketed⟩
      · refine ⟨_, .name (.inr ⟨?_, ?_⟩)⟩
        · cases front with
          | nil => simp
          | cons first rest => exact begins
        · simp [mem]
  · exact ⟨_, .name (.inl ends)⟩

theorem means_iff {piece : List Char} {result : Except Fault (List Segment)} :
    Means path piece result ↔ meaning path piece = result := by
  constructor
  · exact Means.meaning_eq
  · rintro rfl
    rcases exists_means path piece with ⟨result, means⟩
    rwa [means.meaning_eq]

theorem spells_iff {remaining : List (List Char)} {segments : List Segment}
    {fault? : Option Fault} :
    Spells path remaining segments fault? ↔
      (readPieces remaining).1 = segments ∧
        (readPieces remaining).2.map (·.fault path) = fault? := by
  constructor
  · intro spells
    induction spells with
    | nil => exact ⟨rfl, rfl⟩
    | @cons piece rest first segments fault? means behind ih =>
        have read := means.meaning_eq
        rw [meaning] at read
        rw [readPieces]
        cases own : readPiece piece with
        | error bad => simp [own, Except.map] at read
        | ok both =>
            simp only [own, mapError_ok, Except.map, Except.ok.injEq] at read
            simp [← read, ih.1, ih.2]
    | @malformed piece rest fault means =>
        have read := means.meaning_eq
        rw [meaning] at read
        rw [readPieces]
        cases own : readPiece piece with
        | error bad => simpa [own, Except.map] using read
        | ok both => simp [own, Except.map] at read
  · rintro ⟨rfl, rfl⟩
    induction remaining with
    | nil => exact .nil
    | cons piece rest ih =>
        rw [readPieces]
        cases own : readPiece piece with
        | error bad =>
            apply Spells.malformed
            simp [means_iff, meaning, own, Except.map]
        | ok both =>
            have means : Means path piece (.ok (both.1 :: both.2.toList)) := by
              simp [means_iff, meaning, own, Except.map]
            exact .cons means ih

section Stream

/-- Segments one by one and, if there is a fault, the fault behind them. -/
def stream (segments : List Segment) (fault? : Option Fault) : List (Except Fault Segment) :=
  segments.map .ok ++ fault?.toList.map .error

variable {segments : List Segment} {fault? : Option Fault} {place : Nat}

theorem stream_eq_ok_iff {segment : Segment} :
    (stream segments fault?)[place]? = some (.ok segment) ↔ segments[place]? = some segment := by
  rw [stream, List.getElem?_append, List.length_map]
  split
  · simp
  · next beyond =>
    rw [List.getElem?_eq_none (Nat.not_lt.mp beyond)]
    cases fault? with
    | none => simp
    | some fault => cases place - segments.length <;> simp

theorem stream_eq_error_iff {fault : Fault} :
    (stream segments fault?)[place]? = some (.error fault) ↔
      place = segments.length ∧ fault? = some fault := by
  rw [stream, List.getElem?_append, List.length_map]
  split
  · next within =>
    have before : place ≠ segments.length := Nat.ne_of_lt within
    simp [before]
  · next beyond =>
    cases fault? with
    | none => simp
    | some own =>
        have atEnd : place - segments.length = 0 ↔ place = segments.length := by omega
        rw [← atEnd]
        cases place - segments.length <;> simp

theorem stream_eq_none_iff :
    (stream segments fault?)[place]? = none ↔ segments.length + fault?.toList.length ≤ place := by
  simp [stream]

theorem filterMap_take_stream :
    ((stream segments fault?).take place).filterMap Except.toOption = segments.take place := by
  have kept : ∀ segments : List Segment,
      (segments.map Except.ok).filterMap (@Except.toOption Fault Segment) = segments := by
    intro segments
    rw [List.filterMap_map]
    exact List.filterMap_some
  have dropped : ∀ faults : List Fault,
      (faults.map Except.error).filterMap (@Except.toOption Fault Segment) = [] := by
    intro faults
    simp [List.filterMap_map, Function.comp_def, Except.toOption]
  rw [stream, List.take_append, ← List.map_take, ← List.map_take, List.filterMap_append, kept,
    dropped, List.append_nil]

end Stream

namespace Cursor

/-- All that a cursor will still hand out. -/
def items (cursor : Cursor) : List (Except Fault Segment) :=
  if cursor.failed then []
  else stream (cursor.pending.toList ++ (readPieces (piecesAmong cursor.remaining)).1)
    ((readPieces (piecesAmong cursor.remaining)).2.map (·.fault cursor.path))

/-- What a call hands out in the form that iterators use: nothing at the end. -/
def item : Except Fault (Option Segment) → Option (Except Fault Segment)
  | .ok none => none
  | .ok (some segment) => some (.ok segment)
  | .error fault => some (.error fault)

/-- A cursor after a number of calls. -/
def after : Nat → Cursor → Cursor
  | 0, cursor => cursor
  | calls + 1, cursor => after calls cursor.next.2

/-- A call hands out the first item, notes it if it is a segment, and leaves the others. -/
theorem next_items (cursor : Cursor) :
    item cursor.next.1 = cursor.items.head? ∧
      cursor.next.2.items = cursor.items.tail ∧
      cursor.next.2.consumed = cursor.consumed ++
        (cursor.items.take 1).filterMap Except.toOption := by
  rcases cursor with ⟨path, remaining, pending, consumed, failed⟩
  cases failed with
  | true => simp [next, items, item]
  | false =>
      cases pending with
      | some segment => simp [next, items, stream, item, Except.toOption]
      | none =>
          have passes := passes_next path remaining consumed
          generalize next ⟨path, remaining, none, consumed, false⟩ = answer at passes ⊢
          cases passes with
          | atEnd nothing => simp [items, stream, item, nothing, readPieces]
          | malformed left read =>
              simp [items, stream, item, left, readPieces, read, Except.toOption]
          | piece left read => simp [items, stream, item, left, readPieces, read, Except.toOption]

theorem after_items (calls : Nat) (cursor : Cursor) :
    (cursor.after calls).items = cursor.items.drop calls ∧
      (cursor.after calls).consumed = cursor.consumed ++
        (cursor.items.take calls).filterMap Except.toOption := by
  induction calls generalizing cursor with
  | zero => simp [after]
  | succ calls ih =>
      rcases next_items cursor with ⟨_, left, noted⟩
      rw [after, (ih _).1, (ih _).2, left, noted]
      cases cursor.items with
      | nil => simp
      | cons first rest =>
          rw [List.take_succ_cons, List.take_succ_cons, List.take_zero, List.append_assoc,
            ← List.filterMap_append]
          exact ⟨rfl, rfl⟩

theorem items_start {segments : List Segment} {fault? : Option Fault}
    (spells : Spells path (pieces path.toList) segments fault?) :
    (start path).items = stream segments fault? := by
  rcases spells_iff.mp spells with ⟨rfl, rfl⟩
  rfl

section Item

variable {answer : Except Fault (Option Segment)}

theorem item_eq_ok_iff {segment : Segment} :
    item answer = some (.ok segment) ↔ answer = .ok (some segment) := by
  rcases answer with fault | _ | own <;> simp [item]

theorem item_eq_error_iff {fault : Fault} :
    item answer = some (.error fault) ↔ answer = .error fault := by
  rcases answer with own | _ | segment <;> simp [item]

theorem item_eq_none_iff : item answer = none ↔ answer = .ok none := by
  rcases answer with fault | _ | segment <;> simp [item]

end Item

end Cursor

/-- The calls of a cursor hand out what its path means: the segments of the pieces in front of the
first malformed one, one a call, then the fault of that piece in a single call, and nothing in all
calls behind. What has been handed out so far is noted. All segments at once, or the fault, are
what the path is read as. -/
theorem next_after_of_meaning (path : String) :
    ∃ segments fault?, Spells path (pieces path.toList) segments fault? ∧
      (∀ segments' fault?', Spells path (pieces path.toList) segments' fault?' →
        segments' = segments ∧ fault?' = fault?) ∧
      (∀ calls,
        (∀ segment, ((Cursor.start path).after calls).next.1 = .ok (some segment) ↔
          segments[calls]? = some segment) ∧
        (∀ fault, ((Cursor.start path).after calls).next.1 = .error fault ↔
          calls = segments.length ∧ fault? = some fault) ∧
        (((Cursor.start path).after calls).next.1 = .ok none ↔
          segments.length + fault?.toList.length ≤ calls) ∧
        Cursor.item ((Cursor.start path).after calls).next.1 =
          (segments.map .ok ++ fault?.toList.map .error)[calls]? ∧
        ((Cursor.start path).after calls).consumed = segments.take calls ∧
        ((Cursor.start path).after calls).resolved = render (segments.take calls)) ∧
      tokenize path = fault?.elim (.ok segments) .error := by
  have spells := (@spells_iff path (pieces path.toList) _ _).mpr ⟨rfl, rfl⟩
  refine ⟨_, _, spells, ?_, ?_, ?_⟩
  · intro segments' fault?' spells'
    rcases spells_iff.mp spells' with ⟨rfl, rfl⟩
    exact ⟨rfl, rfl⟩
  · intro calls
    have left := Cursor.after_items calls (Cursor.start path)
    have handed := (Cursor.next_items ((Cursor.start path).after calls)).1
    rw [Cursor.items_start spells, filterMap_take_stream] at left
    rw [left.1, List.head?_drop] at handed
    have consumed := left.2
    rw [Cursor.start, List.nil_append] at consumed
    refine ⟨?_, ?_, ?_, handed, consumed, congrArg render consumed⟩
    · intro segment
      rw [← Cursor.item_eq_ok_iff, handed, stream_eq_ok_iff]
    · intro fault
      rw [← Cursor.item_eq_error_iff, handed, stream_eq_error_iff]
    · rw [← Cursor.item_eq_none_iff, handed, stream_eq_none_iff]
  · rw [tokenize]
    rcases readPieces (pieces path.toList) with ⟨segments, _ | bad⟩ <;> rfl

/-- The name in front of bad brackets is not handed out, and neither is what stands behind them. -/
example : ((List.range 4).map fun calls =>
    ((Cursor.start "a[0]. b[1][x] .c").after calls).next.1.toOption) =
      [some (some (.key "a")), some (some (.index 0)), none, some none] := by decide

end Path

end ConfigTree
