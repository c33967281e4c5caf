import ConfigTree.Dictionary.Lookup
import ConfigTree.Proofs.Template.Worth

/-!
# Replacing the references in a text

The worth of the pieces of a text does not depend on how paths are looked up
behind a reference, so what is shown here holds at every level of references
inside referenced texts and under every policy.
-/

namespace ConfigTree.Dictionary

open Template

variable (dictionary : Dictionary) (follow : String → Except Fault (Option String))

/-- Replacing the references computes what the cutting is worth. -/
theorem substituteWith_of_cuts {text : String} {pieces : List Piece}
    {unclosed : Option (List Char)} (cuts : Cuts text.toList pieces unclosed) :
    dictionary.substituteWith follow text =
      worth (dictionary.resolve follow) text pieces unclosed := by
  rw [substituteWith, expand_eq_expandFrom, expandFrom_of_cuts text cuts]

theorem resolve_of_trimmed_eq_empty {reference : Reference}
    (blank : Text.trimmed reference.name = "") : dictionary.resolve follow reference = .ok "" := by
  simp [resolve, blank]

variable {dictionary follow} {follow' : String → Except Fault (Option String)}

/-- A name is looked up in the tree: there is one, the tree is asked, and the environment has
nothing for it. -/
def Followed (dictionary : Dictionary) (name : String) : Prop :=
  name ≠ "" ∧ dictionary.substitutesConfiguration = true ∧ dictionary.fromEnvironment name = none

/-- What a reference comes to whose name is found nowhere. -/
def fallback (dictionary : Dictionary) (reference : Reference) : Except Fault String :=
  match reference.default with
  | some default => .ok (Text.trimmed default)
  | none => .error (dictionary.unresolved (Text.trimmed reference.name))

theorem resolve_of_followed {reference : Reference}
    (followed : dictionary.Followed (Text.trimmed reference.name)) :
    dictionary.resolve follow reference =
      match follow (Text.trimmed reference.name) with
      | .ok text => .ok (text.getD "")
      | .error fault =>
        if fault.isNotFound then dictionary.fallback reference else .error fault := by
  rcases followed with ⟨named, asked, undefined⟩
  simp only [resolve, named, if_false, undefined, fromConfiguration, asked, if_true]
  cases follow (Text.trimmed reference.name) with
  | ok text => rfl
  | error fault =>
      cases missing : fault.isNotFound with
      | false =>
          simp only [missing]
          rfl
      | true =>
          simp only [missing, if_true]
          rfl

/-- A name that is not looked up in the tree does not depend on how paths are looked up. -/
theorem resolve_of_not_followed {reference : Reference}
    (ends : ¬dictionary.Followed (Text.trimmed reference.name)) :
    (∃ text, ∀ follow, dictionary.resolve follow reference = .ok text) ∨
      ∀ follow, dictionary.resolve follow reference = dictionary.fallback reference := by
  by_cases blank : Text.trimmed reference.name = ""
  · exact .inl ⟨"", fun follow => dictionary.resolve_of_trimmed_eq_empty follow blank⟩
  · cases defined : dictionary.fromEnvironment (Text.trimmed reference.name) with
    | some text =>
        refine .inl ⟨text, ?_⟩
        intro follow
        simp [resolve, blank, defined]
    | none =>
        have silent : dictionary.substitutesConfiguration = false := by
          rw [← Bool.not_eq_true]
          exact fun asked => ends ⟨blank, asked, defined⟩
        refine .inr ?_
        intro follow
        simp only [resolve, blank, if_false, defined, fromConfiguration, silent]
        rfl

theorem resolve_congr {reference : Reference}
    (agree : dictionary.Followed (Text.trimmed reference.name) →
      follow (Text.trimmed reference.name) = follow' (Text.trimmed reference.name)) :
    dictionary.resolve follow reference = dictionary.resolve follow' reference := by
  by_cases followed : dictionary.Followed (Text.trimmed reference.name)
  · rw [resolve_of_followed followed, resolve_of_followed followed, agree followed]
  · rcases resolve_of_not_followed followed with ⟨text, always⟩ | always <;> rw [always, always]

/-- A reference fails because its name is found nowhere, or with the fault of looking it up. -/
theorem of_resolve_eq_error {reference : Reference} {fault : Fault}
    (failed : dictionary.resolve follow reference = .error fault) :
    fault = dictionary.unresolved (Text.trimmed reference.name) ∨
      dictionary.Followed (Text.trimmed reference.name) ∧
        follow (Text.trimmed reference.name) = .error fault ∧ fault.isNotFound = false := by
  have ofFallback : dictionary.fallback reference = .error fault →
      fault = dictionary.unresolved (Text.trimmed reference.name) := by
    intro fell
    unfold fallback at fell
    cases default : reference.default with
    | some text => simp [default] at fell
    | none => simpa [default, eq_comm] using fell
  by_cases followed : dictionary.Followed (Text.trimmed reference.name)
  · rw [resolve_of_followed followed] at failed
    cases found : follow (Text.trimmed reference.name) with
    | ok text => simp [found] at failed
    | error inner =>
        simp only [found] at failed
        split at failed
        · exact .inl (ofFallback failed)
        · next notMissing =>
          cases failed
          exact .inr ⟨followed, rfl, by simpa using notMissing⟩
  · rcases resolve_of_not_followed followed with ⟨text, always⟩ | always
    · simp [always] at failed
    · rw [always] at failed
      exact .inl (ofFallback failed)

theorem substituteWith_congr {text : String}
    (agree : ∀ reference, Refers text reference →
      dictionary.resolve follow reference = dictionary.resolve follow' reference) :
    dictionary.substituteWith follow text = dictionary.substituteWith follow' text := by
  rcases exists_cuts text.toList with ⟨pieces, unclosed, cuts⟩
  rw [substituteWith_of_cuts _ _ cuts, substituteWith_of_cuts _ _ cuts]
  apply worth_congr
  intro piece mem
  apply Piece.worth_congr
  intro reference isReference
  exact agree reference ⟨pieces, unclosed, cuts, piece, mem, isReference⟩

theorem substituteWith_of_refers {text : String} {reference : Reference} {fault : Fault}
    (refers : Refers text reference)
    (failed : dictionary.resolve follow reference = .error fault) :
    ∃ fault, dictionary.substituteWith follow text = .error fault := by
  rcases refers with ⟨pieces, unclosed, cuts, piece, mem, isReference⟩
  rw [substituteWith_of_cuts _ _ cuts]
  exact worth_of_mem_of_eq_error mem
    ((Piece.worth_of_reference_eq_some isReference).trans failed)

/-- Replacing fails with the fault of a reference in the text, or because of an open brace. -/
theorem of_substituteWith_eq_error {text : String} {fault : Fault}
    (failed : dictionary.substituteWith follow text = .error fault) :
    (∃ reference, Refers text reference ∧
      dictionary.resolve follow reference = .error fault) ∨
      ∃ name, fault = unterminated text name := by
  rcases exists_cuts text.toList with ⟨pieces, unclosed, cuts⟩
  rw [substituteWith_of_cuts _ _ cuts] at failed
  rcases worth_eq_error_iff.mp failed with
    ⟨before, texts, failing, behind, rfl, _, first⟩ | ⟨name, _, _, _, isOpen⟩
  · rcases Piece.of_worth_eq_error first with ⟨reference, isReference, unresolved⟩
    exact .inl ⟨reference, ⟨_, unclosed, cuts, failing, by simp, isReference⟩, unresolved⟩
  · exact .inr ⟨name, isOpen⟩

variable (dictionary follow)

/-- A text is cut in exactly one way, and with its references replaced it is what the cutting is
worth: the worths of all pieces, the fault of the first piece without one, or the fault of the open
brace behind pieces that all have one. The number 502 stands for the latter, here or in a text that
is looked up for the first piece without a worth. -/
theorem substituteWith_iff_of_cutting (text : String) :
    ∃ pieces unclosed, Cuts text.toList pieces unclosed ∧
      (∀ pieces' unclosed', Cuts text.toList pieces' unclosed' →
        pieces' = pieces ∧ unclosed' = unclosed) ∧
      (∀ result, dictionary.substituteWith follow text = .ok result ↔
        unclosed = none ∧ ∃ texts, Worths (dictionary.resolve follow) pieces texts ∧
          result = String.join texts) ∧
      (∀ fault, dictionary.substituteWith follow text = .error fault ↔
        (∃ before texts failing behind, pieces = before ++ failing :: behind ∧
          Worths (dictionary.resolve follow) before texts ∧
          failing.worth (dictionary.resolve follow) = .error fault) ∨
        ∃ name texts, unclosed = some name ∧ Worths (dictionary.resolve follow) pieces texts ∧
          fault = unterminated text name) ∧
      ((∃ fault, dictionary.substituteWith follow text = .error fault ∧ fault.code = some 502) ↔
        (∃ name texts, unclosed = some name ∧
          Worths (dictionary.resolve follow) pieces texts) ∨
        ∃ before texts failing behind fault, pieces = before ++ failing :: behind ∧
          Worths (dictionary.resolve follow) before texts ∧
          failing.worth (dictionary.resolve follow) = .error fault ∧ fault.code = some 502) ∧
      (∀ reference fault, dictionary.resolve follow reference = .error fault →
        fault.code = some 502 → dictionary.substitutesConfiguration = true ∧
          follow (Text.trimmed reference.name) = .error fault) ∧
      (∀ reference, Text.trimmed reference.name = "" →
        dictionary.resolve follow reference = .ok "") ∧
      ('$' ∉ text.toList → dictionary.substituteWith follow text = .ok text ∧
        expandFrom (dictionary.resolve follow) text .plain text.toList = .ok text) := by
  rcases exists_cuts text.toList with ⟨pieces, unclosed, cuts⟩
  have isWorth := dictionary.substituteWith_of_cuts follow cuts
  have isError := @worth_eq_error_iff (dictionary.resolve follow) text
  refine ⟨pieces, unclosed, cuts, ?_, ?_, ?_, ?_, ?_, ?_, ?_⟩
  · intro pieces' unclosed' cuts'
    exact cuts'.unique cuts
  · intro result
    rw [isWorth]
    exact worth_eq_ok_iff
  · intro fault
    rw [isWorth]
    exact isError
  · rw [isWorth]
    constructor
    · rintro ⟨fault, failed, code⟩
      rcases isError.mp failed with
        ⟨before, texts, failing, behind, split, worths, first⟩ | ⟨name, texts, isOpen, worths, _⟩
      · exact .inr ⟨before, texts, failing, behind, fault, split, worths, first, code⟩
      · exact .inl ⟨name, texts, isOpen, worths⟩
    · rintro (⟨name, texts, isOpen, worths⟩ |
        ⟨before, texts, failing, behind, fault, split, worths, first, code⟩)
      · exact ⟨_, isError.mpr (.inr ⟨name, texts, isOpen, worths, rfl⟩), rfl⟩
      · exact ⟨fault, isError.mpr (.inl ⟨before, texts, failing, behind, split, worths, first⟩),
          code⟩
  · intro reference fault failed code
    rcases of_resolve_eq_error failed with rfl | ⟨followed, looked, _⟩
    · simp [unresolved] at code
    · exact ⟨followed.2.1, looked⟩
  · intro reference blank
    exact dictionary.resolve_of_trimmed_eq_empty follow blank
  · intro free
    have reader := @expandFrom_of_no_dollar (dictionary.resolve follow) text _ free
    rw [String.ofList_toList] at reader
    exact ⟨by rw [substituteWith, expand_eq_expandFrom, reader], reader⟩

/-- Replacing the references in a text fails for an open brace although all braces of the text are
closed: the brace is open in a text that it refers to. -/
theorem substituteWith_of_open_further_on :
    ∃ dictionary : Dictionary,
      dictionary.root =
        some (.object [("a", .ofText "$\x7bb\x7d"), ("b", .ofText "$\x7bc")]) ∧
      (∀ pieces unclosed, Cuts "$\x7bb\x7d".toList pieces unclosed → unclosed = none) ∧
      dictionary.substituteWith (dictionary.getWithin 31) "$\x7bb\x7d" =
        .error (unterminated "$\x7bc" ['c']) ∧
      dictionary.get "a" = .error (unterminated "$\x7bc" ['c']) ∧
      (unterminated "$\x7bc" ['c']).code = some 502 := by
  have free : ∀ c ∈ ['b'], c ≠ ':' ∧ c ≠ '}' := name_free_of_notMem (by simp) (by simp)
  have closed : Cuts "$\x7bb\x7d".toList [.braced ['b'] none] none :=
    .piece (.braced free) .done
  refine ⟨{ Dictionary.ofNode
    (.object [("a", .ofText "$\x7bb\x7d"), ("b", .ofText "$\x7bc")]) with
      substitutesConfiguration := true }, rfl, ?_, ?_, ?_, rfl⟩
  · intro pieces unclosed cuts
    exact (cuts.unique closed).2
  · decide +kernel
  · decide +kernel

end ConfigTree.Dictionary
