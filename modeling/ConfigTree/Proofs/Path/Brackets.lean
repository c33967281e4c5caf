import ConfigTree.Proofs.Decimal.Digits
import ConfigTree.Proofs.Path.Pieces

/-!
# Pieces with brackets

A position is written as its digits in brackets, and read back as long as it has no
more than 64 bits. Behind a text that does not begin with a bracket it is a position
behind a name, and the name is all of that text, earlier brackets included. Behind a
text that begins with a bracket it is not read at all: the outer brackets of the
piece are taken for its brackets, and something other than digits is between them.
-/

namespace ConfigTree

namespace Segment

/-- A position in brackets. -/
def bracket (position : Nat) : List Char :=
  '[' :: Nat.toDigits 10 position ++ [']']

@[simp]
theorem getLast?_append_bracket (text : List Char) (position : Nat) :
    (text ++ bracket position).getLast? = some ']' := by
  rw [bracket, ← List.append_assoc, List.getLast?_concat]

theorem toList_text_index (position : Nat) :
    (text (.index position)).toList = bracket position := by
  have opening : (toString "[").toList = ['['] := rfl
  have closing : (toString "]").toList = [']'] := rfl
  simp [text, bracket, opening, closing]

theorem no_dot_in_bracket (position : Nat) : '.' ∉ bracket position := by
  intro mem
  rcases List.mem_append.mp mem with opening | closing
  · rcases List.mem_cons.mp opening with isBracket | digit
    · cases isBracket
    · cases Decimal.isDigit_of_mem_toDigits digit
  · simp at closing

end Segment

namespace Path

open Segment (bracket)
open Decimal (isDigit_of_mem_toDigits)

theorem readPosition_of_denotes {digits : List Char} {position : Nat}
    (denotes : Decimal.Denotes digits position) :
    readPosition digits =
      if position < UInt64.size then .ok position else .error (.tooLarge (.ofList digits)) := by
  rcases Decimal.denotes_iff.mp denotes with ⟨filled, areDigits, rfl⟩
  rw [readPosition, if_neg filled, if_pos (List.all_eq_true.mpr areDigits)]

theorem readPosition_toDigits {position : Nat} (small : position < UInt64.size) :
    readPosition (Nat.toDigits 10 position) = .ok position := by
  rw [readPosition_of_denotes (Decimal.denotes_toDigits position), if_pos small]

theorem readPosition_of_mem {inner : List Char} {c : Char} (mem : c ∈ inner)
    (noDigit : c.isDigit = false) : readPosition inner = .error (.notDigits (.ofList inner)) := by
  have filled : inner ≠ [] := List.ne_nil_of_mem mem
  have notAll : inner.all Char.isDigit = false := by
    rw [List.all_eq_false]
    exact ⟨c, mem, by simp [noDigit]⟩
  simp [readPosition, filled, notAll]

theorem lt_of_readPosition_eq_ok {inner : List Char} {position : Nat}
    (read : readPosition inner = .ok position) : position < UInt64.size := by
  simp only [readPosition] at read
  split at read
  · cases read
  · split at read
    · split at read
      · next small =>
        cases read
        exact small
      · cases read
    · cases read

theorem cutAtLast_append {mark : Char} (before : List Char) {behind : List Char}
    (free : mark ∉ behind) : cutAtLast mark (before ++ mark :: behind) = some (before, behind) := by
  have nowhere : cutAtLast mark behind = none := by
    induction behind with
    | nil => rfl
    | cons c rest ih =>
        rw [List.mem_cons, not_or] at free
        rw [cutAtLast, ih free.2]
        simp [Ne.symm free.1]
  induction before with
  | nil => simp [cutAtLast, nowhere]
  | cons c before ih => simp [cutAtLast, ih]

theorem of_cutAtLast_eq_some {mark : Char} {text before behind : List Char}
    (cut : cutAtLast mark text = some (before, behind)) : text = before ++ mark :: behind := by
  induction text generalizing before with
  | nil => cases cut
  | cons c rest ih =>
      rw [cutAtLast] at cut
      cases later : cutAtLast mark rest with
      | some parts =>
          rw [later] at cut
          cases cut
          rw [ih later, List.cons_append]
      | none =>
          rw [later] at cut
          dsimp only at cut
          split at cut
          · next isMark =>
            cases cut
            rw [isMark, List.nil_append]
          · cases cut

theorem readPiece_bracket {position : Nat} (small : position < UInt64.size) :
    readPiece (bracket position) = .ok (.index position, none) := by
  have last : (bracket position).getLast? = some ']' := Segment.getLast?_append_bracket [] position
  have first : (bracket position).head? = some '[' := rfl
  have inner : (bracket position).tail.dropLast = Nat.toDigits 10 position := by simp [bracket]
  simp [readPiece, last, first, inner, readPosition_toDigits small, bind, Except.bind, pure,
    Except.pure]

/-- Behind a text that begins with a bracket, a position spoils the piece. -/
theorem readPiece_append_bracket_of_head {text : List Char} (begins : text.head? = some '[')
    (position : Nat) : ∃ bad, readPiece (text ++ bracket position) = .error bad := by
  rcases text with _ | ⟨c, rest⟩
  · cases begins
  · cases begins
    have first : ('[' :: rest ++ bracket position).head? = some '[' := rfl
    have inner : ('[' :: rest ++ bracket position).tail.dropLast =
        rest ++ '[' :: Nat.toDigits 10 position := by
      rw [List.cons_append, List.tail_cons, bracket, ← List.append_assoc, List.dropLast_concat]
    have mem : '[' ∈ rest ++ '[' :: Nat.toDigits 10 position := by simp
    refine ⟨.notDigits (.ofList (rest ++ '[' :: Nat.toDigits 10 position)), ?_⟩
    rw [readPiece, if_pos (Segment.getLast?_append_bracket _ position), if_pos first, inner,
      readPosition_of_mem mem rfl]
    rfl

/-- Behind any other text, a position is a segment of its own. -/
theorem readPiece_append_bracket {name : List Char} (filled : name ≠ [])
    (begins : name.head? ≠ some '[') {position : Nat} (small : position < UInt64.size) :
    readPiece (name ++ bracket position) = .ok (.key (.ofList name), some (.index position)) := by
  have first : (name ++ bracket position).head? ≠ some '[' := by
    rwa [List.head?_append_of_ne_nil _ filled]
  have free : '[' ∉ Nat.toDigits 10 position ++ [']'] := by
    intro mem
    rcases List.mem_append.mp mem with digit | closing
    · cases isDigit_of_mem_toDigits digit
    · simp at closing
  have cut : cutAtLast '[' (name ++ bracket position) =
      some (name, Nat.toDigits 10 position ++ [']']) := cutAtLast_append name free
  rw [readPiece, if_pos (Segment.getLast?_append_bracket _ position), if_neg first, cut]
  dsimp only
  rw [List.dropLast_concat, readPosition_toDigits small]
  rfl

/-- A piece that can be read is a position, a name with a position behind it, or itself a name. -/
theorem of_readPiece_eq_ok {piece : List Char} {first : Segment} {second : Option Segment}
    (read : readPiece piece = .ok (first, second)) :
    (∃ position, position < UInt64.size ∧ first = .index position ∧ second = none) ∨
      (∃ name behind position, position < UInt64.size ∧ piece = name ++ '[' :: behind ∧
        piece.head? ≠ some '[' ∧ first = .key (.ofList name) ∧ second = some (.index position)) ∨
      first = .key (.ofList piece) ∧ second = none := by
  unfold readPiece at read
  split at read
  · split at read
    · cases inside : readPosition piece.tail.dropLast with
      | error bad => simp [inside, bind, Except.bind] at read
      | ok position =>
          simp only [inside, bind, Except.bind, pure, Except.pure, Except.ok.injEq,
            Prod.mk.injEq] at read
          exact .inl ⟨position, lt_of_readPosition_eq_ok inside, read.1.symm, read.2.symm⟩
    · next begins =>
      split at read
      · next name bracket cut =>
        cases inside : readPosition bracket.dropLast with
        | error bad => simp [inside, bind, Except.bind] at read
        | ok position =>
            simp only [inside, bind, Except.bind, pure, Except.pure, Except.ok.injEq,
              Prod.mk.injEq] at read
            exact .inr (.inl ⟨name, bracket, position, lt_of_readPosition_eq_ok inside,
              of_cutAtLast_eq_some cut, begins, read.1.symm, read.2.symm⟩)
      · cases read
        exact .inr (.inr ⟨rfl, rfl⟩)
  · cases read
    exact .inr (.inr ⟨rfl, rfl⟩)

theorem readPiece_of_no_bracket {piece : List Char} (free : ']' ∉ piece) :
    readPiece piece = .ok (.key (.ofList piece), none) := by
  have noEnd : piece.getLast? ≠ some ']' := fun last => free (List.mem_of_getLast? last)
  simp [readPiece, noEnd]

end Path

end ConfigTree
