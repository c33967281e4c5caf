import ConfigTree.Template
import Mathlib.Data.List.Basic

/-!
# Cutting a text

What a text with references consists of, said without a reader: from left to
right, a text is cut into escaped dollar signs, references and other characters.
The rules look at the text alone and leave no choice, so every text is cut in
exactly one way. Only a reference whose brace is not closed cannot be cut off,
and it is then the last thing in the text.
-/

namespace ConfigTree

namespace Template

/-- A piece of a text. -/
inductive Piece where
  /-- An escaped dollar sign. -/
  | dollar
  /-- A reference with braces, and its default if it has one. -/
  | braced (name : List Char) (default : Option (List Char))
  /-- A reference without braces; a lone dollar sign is one without a name. -/
  | bare (name : List Char)
  /-- Any other character. -/
  | character (c : Char)

/-- A name without braces cannot go on here. -/
inductive Stop : List Char → Prop where
  | done : Stop []
  | dollar {rest : List Char} : Stop ('$' :: rest)
  | escaped {rest : List Char} : Stop ('\\' :: '$' :: rest)

/-- The first stop in `name` and `rest` together is where `rest` begins. -/
structure FirstStop (name rest : List Char) : Prop where
  stops : Stop rest
  longest : ∀ behind, behind ≠ [] → behind <:+ name → ¬Stop (behind ++ rest)

/-- `Starts text piece rest` means that `text` starts with `piece` and goes on with `rest`. -/
inductive Starts : List Char → Piece → List Char → Prop where
  | dollar {rest : List Char} : Starts ('\\' :: '$' :: rest) .dollar rest
  | braced {name rest : List Char} (free : ∀ c ∈ name, c ≠ ':' ∧ c ≠ '}') :
      Starts ('$' :: '{' :: (name ++ '}' :: rest)) (.braced name none) rest
  | defaulted {name default rest : List Char} (free : ∀ c ∈ name, c ≠ ':' ∧ c ≠ '}')
      (closed : '}' ∉ default) :
      Starts ('$' :: '{' :: (name ++ ':' :: (default ++ '}' :: rest)))
        (.braced name (some default)) rest
  | bare {name rest : List Char} (unbraced : name.head? ≠ some '{')
      (first : FirstStop name rest) : Starts ('$' :: (name ++ rest)) (.bare name) rest
  | character {c : Char} {rest : List Char} (free : c ≠ '$')
      (unescaped : ¬(c = '\\' ∧ rest.head? = some '$')) : Starts (c :: rest) (.character c) rest

/-- `Cuts text pieces unclosed` means that `text` consists of `pieces`, and of a reference behind
them whose brace is not closed if `unclosed` has the name of one. -/
inductive Cuts : List Char → List Piece → Option (List Char) → Prop where
  | done : Cuts [] [] none
  | unclosed {rest : List Char} (isOpen : '}' ∉ rest) :
      Cuts ('$' :: '{' :: rest) [] (some (rest.takeWhile (· != ':')))
  | piece {text rest : List Char} {piece : Piece} {pieces : List Piece}
      {unclosed : Option (List Char)} (starts : Starts text piece rest)
      (cuts : Cuts rest pieces unclosed) : Cuts text (piece :: pieces) unclosed

theorem not_stop_cons_iff {c : Char} {rest : List Char} :
    ¬Stop (c :: rest) ↔ c ≠ '$' ∧ ¬(c = '\\' ∧ rest.head? = some '$') := by
  constructor
  · intro goesOn
    refine ⟨?_, ?_⟩
    · rintro rfl
      exact goesOn .dollar
    · rintro ⟨rfl, escaped⟩
      rcases List.head?_eq_some_iff.mp escaped with ⟨more, rfl⟩
      exact goesOn .escaped
  · rintro ⟨free, unescaped⟩ stops
    cases stops with
    | dollar => exact free rfl
    | escaped => exact unescaped ⟨rfl, rfl⟩

theorem name_free_of_notMem {name : List Char} (noColon : ':' ∉ name) (noBrace : '}' ∉ name) :
    ∀ c ∈ name, c ≠ ':' ∧ c ≠ '}' := by
  intro c mem
  refine ⟨?_, ?_⟩
  · rintro rfl
    exact noColon mem
  · rintro rfl
    exact noBrace mem

namespace FirstStop

variable {name rest : List Char}

theorem nil (stops : Stop rest) : FirstStop [] rest where
  stops := stops
  longest _ nonempty suffix := absurd (List.suffix_nil.mp suffix) nonempty

theorem cons {c : Char} (goesOn : ¬Stop (c :: (name ++ rest))) (first : FirstStop name rest) :
    FirstStop (c :: name) rest where
  stops := first.stops
  longest behind nonempty suffix := by
    rcases List.suffix_cons_iff.mp suffix with rfl | shorter
    · exact goesOn
    · exact first.longest behind nonempty shorter

theorem of_cons {c : Char} (first : FirstStop (c :: name) rest) :
    ¬Stop (c :: (name ++ rest)) ∧ FirstStop name rest := by
  refine ⟨first.longest (c :: name) (by simp) List.suffix_rfl, first.stops, ?_⟩
  intro behind nonempty suffix
  exact first.longest behind nonempty (suffix.trans (List.suffix_cons c name))

theorem exists_of (text : List Char) : ∃ name rest, text = name ++ rest ∧ FirstStop name rest := by
  induction text with
  | nil => exact ⟨[], [], rfl, nil .done⟩
  | cons c text ih =>
      by_cases stops : Stop (c :: text)
      · exact ⟨[], c :: text, rfl, nil stops⟩
      · rcases ih with ⟨name, rest, rfl, first⟩
        exact ⟨c :: name, rest, rfl, first.cons stops⟩

/-- A text has one first stop. -/
theorem unique {name' rest' : List Char} (first : FirstStop name rest)
    (first' : FirstStop name' rest') (same : name ++ rest = name' ++ rest') :
    name = name' ∧ rest = rest' := by
  rcases List.append_eq_append_iff.mp same with ⟨more, rfl, rfl⟩ | ⟨more, rfl, rfl⟩
  · by_cases empty : more = []
    · simp [empty]
    · exact absurd first.stops (first'.longest more empty (List.suffix_append _ _))
  · by_cases empty : more = []
    · simp [empty]
    · exact absurd first'.stops (first.longest more empty (List.suffix_append _ _))

/-- A stop is not a brace, so only a name can begin with one. -/
theorem head?_append_ne_brace (first : FirstStop name rest) (unbraced : name.head? ≠ some '{') :
    (name ++ rest).head? ≠ some '{' := by
  cases name with
  | nil => cases first.stops <;> simp
  | cons c name => exact unbraced

end FirstStop

namespace Starts

variable {text rest rest' : List Char} {piece piece' : Piece}

theorem length_lt (starts : Starts text piece rest) : rest.length < text.length := by
  cases starts <;> simp only [List.length_cons, List.length_append] <;> omega

theorem of_brace (starts : Starts ('$' :: '{' :: text) piece rest) :
    ∃ name, (∀ c ∈ name, c ≠ ':' ∧ c ≠ '}') ∧
      (piece = .braced name none ∧ text = name ++ '}' :: rest ∨
        ∃ default, '}' ∉ default ∧ piece = .braced name (some default) ∧
          text = name ++ ':' :: (default ++ '}' :: rest)) := by
  generalize written : '$' :: '{' :: text = whole at starts
  cases starts with
  | dollar => simp at written
  | @braced name rest free =>
      simp only [List.cons.injEq, true_and] at written
      exact ⟨name, free, .inl ⟨rfl, written⟩⟩
  | @defaulted name default rest free closed =>
      simp only [List.cons.injEq, true_and] at written
      exact ⟨name, free, .inr ⟨default, closed, rfl, written⟩⟩
  | @bare name rest unbraced first =>
      simp only [List.cons.injEq, true_and] at written
      cases name with
      | nil =>
          simp only [List.nil_append] at written
          subst written
          cases first.stops
      | cons c name =>
          simp only [List.cons_append, List.cons.injEq] at written
          exact absurd (by simp [← written.1]) unbraced
  | character free unescaped =>
      simp only [List.cons.injEq] at written
      exact absurd written.1.symm free

theorem closed_of_brace (starts : Starts ('$' :: '{' :: text) piece rest) : '}' ∈ text := by
  rcases starts.of_brace with ⟨name, _, ⟨_, rfl⟩ | ⟨default, _, _, rfl⟩⟩ <;> simp

theorem of_unbraced (starts : Starts ('$' :: text) piece rest) (unbraced : text.head? ≠ some '{') :
    ∃ name, piece = .bare name ∧ text = name ++ rest ∧ FirstStop name rest := by
  generalize written : '$' :: text = whole at starts
  cases starts with
  | dollar => simp at written
  | braced free =>
      simp only [List.cons.injEq, true_and] at written
      exact absurd (by simp [written]) unbraced
  | defaulted free closed =>
      simp only [List.cons.injEq, true_and] at written
      exact absurd (by simp [written]) unbraced
  | @bare name rest _ first =>
      simp only [List.cons.injEq, true_and] at written
      exact ⟨name, rfl, written, first⟩
  | character free unescaped =>
      simp only [List.cons.injEq] at written
      exact absurd written.1.symm free

theorem eq_of_first_mark {marks : Char → Prop} {name name' : List Char} {c c' : Char}
    (same : name ++ c :: rest = name' ++ c' :: rest') (mark : marks c) (mark' : marks c')
    (free : ∀ d ∈ name, ¬marks d) (free' : ∀ d ∈ name', ¬marks d) :
    name = name' ∧ c = c' ∧ rest = rest' := by
  rcases List.append_eq_append_iff.mp same with ⟨more, rfl, behind⟩ | ⟨more, rfl, behind⟩
  · cases more with
    | nil => simpa using behind
    | cons d more =>
        simp only [List.cons_append, List.cons.injEq] at behind
        exact absurd (behind.1 ▸ mark) (free' d (by simp))
  · cases more with
    | nil => simpa [eq_comm] using behind
    | cons d more =>
        simp only [List.cons_append, List.cons.injEq] at behind
        exact absurd (behind.1 ▸ mark') (free d (by simp))

theorem eq_of_name_end {name name' : List Char} {c c' : Char}
    (same : name ++ c :: rest = name' ++ c' :: rest') (ends : c = ':' ∨ c = '}')
    (ends' : c' = ':' ∨ c' = '}') (free : ∀ c ∈ name, c ≠ ':' ∧ c ≠ '}')
    (free' : ∀ c ∈ name', c ≠ ':' ∧ c ≠ '}') : name = name' ∧ c = c' ∧ rest = rest' :=
  @eq_of_first_mark _ _ (fun c => c = ':' ∨ c = '}') _ _ _ _ same ends ends'
    (fun c mem => not_or.mpr (free c mem)) (fun c mem => not_or.mpr (free' c mem))

/-- What a text starts with is decided by the text. -/
theorem unique (starts : Starts text piece rest) (starts' : Starts text piece' rest') :
    piece = piece' ∧ rest = rest' := by
  cases starts with
  | dollar =>
      generalize written : '\\' :: '$' :: rest = whole at starts'
      cases starts' with
      | dollar =>
          simp only [List.cons.injEq, true_and] at written
          exact ⟨rfl, written⟩
      | character free unescaped =>
          simp only [List.cons.injEq] at written
          exact absurd ⟨written.1.symm, by simp [← written.2]⟩ unescaped
      | braced free => simp at written
      | defaulted free closed => simp at written
      | bare unbraced first => simp at written
  | @braced name rest free =>
      rcases starts'.of_brace with ⟨name', free', ⟨rfl, same⟩ | ⟨default', closed', rfl, same⟩⟩
      · rcases eq_of_name_end same (.inr rfl) (.inr rfl) free free' with ⟨rfl, _, rfl⟩
        exact ⟨rfl, rfl⟩
      · have ends := (eq_of_name_end same (.inr rfl) (.inl rfl) free free').2.1
        simp at ends
  | @defaulted name default rest free closed =>
      rcases starts'.of_brace with ⟨name', free', ⟨rfl, same⟩ | ⟨default', closed', rfl, same⟩⟩
      · have ends := (eq_of_name_end same (.inl rfl) (.inr rfl) free free').2.1
        simp at ends
      · rcases eq_of_name_end same (.inl rfl) (.inl rfl) free free' with ⟨rfl, _, behind⟩
        rcases @eq_of_first_mark _ _ (· = '}') _ _ _ _ behind rfl rfl
          (fun _ mem ends => closed (ends ▸ mem)) (fun _ mem ends => closed' (ends ▸ mem))
          with ⟨rfl, _, rfl⟩
        exact ⟨rfl, rfl⟩
  | @bare name rest unbraced first =>
      rcases starts'.of_unbraced (first.head?_append_ne_brace unbraced) with
        ⟨name', rfl, same, first'⟩
      rcases first.unique first' same with ⟨rfl, rfl⟩
      exact ⟨rfl, rfl⟩
  | @character c rest free unescaped =>
      generalize written : c :: rest = whole at starts'
      cases starts' with
      | dollar =>
          simp only [List.cons.injEq] at written
          exact absurd ⟨written.1, by simp [written.2]⟩ unescaped
      | character free' unescaped' =>
          simp only [List.cons.injEq] at written
          exact ⟨by rw [written.1], written.2⟩
      | braced free' => exact absurd (List.cons.inj written).1 free
      | defaulted free' closed => exact absurd (List.cons.inj written).1 free
      | bare unbraced first => exact absurd (List.cons.inj written).1 free

end Starts

theorem exists_starts_of_brace {text : List Char} (closed : '}' ∈ text) :
    ∃ piece rest, Starts ('$' :: '{' :: text) piece rest := by
  rcases List.eq_append_cons_of_mem closed with ⟨inside, rest, rfl, inside_open⟩
  by_cases colon : ':' ∈ inside
  · rcases List.eq_append_cons_of_mem colon with ⟨name, default, rfl, noColon⟩
    simp only [List.mem_append, List.mem_cons, not_or] at inside_open
    refine ⟨.braced name (some default), rest, ?_⟩
    rw [List.append_assoc, List.cons_append]
    exact .defaulted (name_free_of_notMem noColon inside_open.1) inside_open.2.2
  · exact ⟨.braced inside none, rest, .braced (name_free_of_notMem colon inside_open)⟩

/-- A text that is not empty starts with a piece, or with a brace that is not closed. -/
theorem exists_starts (first : Char) (rest : List Char) :
    (∃ piece behind, Starts (first :: rest) piece behind) ∨
      ∃ more, first = '$' ∧ rest = '{' :: more ∧ '}' ∉ more := by
  by_cases stops : Stop (first :: rest)
  · cases stops with
    | escaped => exact .inl ⟨_, _, .dollar⟩
    | dollar =>
        by_cases brace : rest.head? = some '{'
        · rcases List.head?_eq_some_iff.mp brace with ⟨more, rfl⟩
          by_cases closed : '}' ∈ more
          · exact .inl (exists_starts_of_brace closed)
          · exact .inr ⟨more, rfl, rfl, closed⟩
        · rcases FirstStop.exists_of rest with ⟨name, behind, rfl, firstStop⟩
          refine .inl ⟨_, _, .bare ?_ firstStop⟩
          cases name with
          | nil => simp
          | cons first name => exact brace
  · rw [not_stop_cons_iff] at stops
    exact .inl ⟨_, _, .character stops.1 stops.2⟩

/-- Every text can be cut. -/
theorem exists_cuts (text : List Char) : ∃ pieces unclosed, Cuts text pieces unclosed := by
  -- A piece is not empty, so what is behind it is shorter.
  induction length : text.length using Nat.strongRecOn generalizing text with
  | ind bound ih =>
      cases text with
      | nil => exact ⟨[], none, .done⟩
      | cons first rest =>
          rcases exists_starts first rest with ⟨piece, behind, starts⟩ | ⟨more, rfl, rfl, isOpen⟩
          · have shorter : behind.length < bound := length ▸ starts.length_lt
            rcases ih behind.length shorter behind rfl with ⟨pieces, unclosed, cuts⟩
            exact ⟨piece :: pieces, unclosed, .piece starts cuts⟩
          · exact ⟨[], _, .unclosed isOpen⟩

/-- A text is cut in one way only. -/
theorem Cuts.unique {text : List Char} {pieces pieces' : List Piece}
    {unclosed unclosed' : Option (List Char)} (cuts : Cuts text pieces unclosed)
    (cuts' : Cuts text pieces' unclosed') : pieces = pieces' ∧ unclosed = unclosed' := by
  induction cuts generalizing pieces' unclosed' with
  | done =>
      generalize written : ([] : List Char) = whole at cuts'
      cases cuts' with
      | done => exact ⟨rfl, rfl⟩
      | unclosed isOpen => simp at written
      | piece starts cuts => cases starts <;> simp at written
  | @unclosed rest isOpen =>
      generalize written : '$' :: '{' :: rest = whole at cuts'
      cases cuts' with
      | done => simp at written
      | unclosed isOpen' =>
          simp only [List.cons.injEq, true_and] at written
          simp [written]
      | piece starts cuts => exact absurd (written ▸ starts).closed_of_brace isOpen
  | piece starts cuts ih =>
      cases cuts' with
      | done => cases starts
      | unclosed isOpen => exact absurd starts.closed_of_brace isOpen
      | piece starts' cuts' =>
          rcases starts.unique starts' with ⟨rfl, rfl⟩
          rcases ih cuts' with ⟨rfl, rfl⟩
          exact ⟨rfl, rfl⟩

end Template

end ConfigTree
