import ConfigTree.Proofs.Dictionary.LastWrite
import ConfigTree.Proofs.Dictionary.Nesting

/-!
# Escaped texts

Any text can be written so that a lookup gives it back: a backslash goes in
front of each dollar sign, and nothing else is escaped. Backslashes that were in
front of a dollar sign before do no harm, since an escaped text never begins with
a dollar sign: the character in front of it is read as itself, and the reader
stays outside of references to the end.

Only what is looked up under a policy of substitution is read that way. Without
one, the tree is handed out as it is, with the backslashes.
-/

namespace ConfigTree

namespace Template

/-- How a character is written so that it stands for itself. -/
def escapeChar (c : Char) : List Char :=
  if c = '$' then ['\\', '$'] else [c]

/-- A text that stands for the given one. -/
def escape (text : String) : String :=
  .ofList (text.toList.flatMap escapeChar)

variable {resolve : Reference → Except Fault String}

theorem head?_escapeChar (chars : List Char) :
    (chars.flatMap escapeChar).head? ≠ some '$' := by
  cases chars with
  | nil => simp
  | cons c rest => by_cases dollar : c = '$' <;> simp [escapeChar, dollar]

/-- The reader of an escaped text stays outside of references, wherever it is in the text. -/
theorem expandFrom_escapeChar (text : String) (chars : List Char) :
    expandFrom resolve text .plain (chars.flatMap escapeChar) = .ok (.ofList chars) := by
  induction chars with
  | nil => rfl
  | cons c rest ih =>
      by_cases dollar : c = '$'
      · subst c
        have starts : Starts (('$' :: rest).flatMap escapeChar) .dollar
            (rest.flatMap escapeChar) := by
          rw [List.flatMap_cons]
          exact .dollar
        rw [expandFrom_of_starts text starts, ih]
        simp [Piece.worth, bind, Except.bind, pure, Except.pure]
      · have starts : Starts ((c :: rest).flatMap escapeChar) (.character c)
            (rest.flatMap escapeChar) := by
          rw [List.flatMap_cons, escapeChar, if_neg dollar]
          exact .character dollar fun escaped => head?_escapeChar rest escaped.2
        rw [expandFrom_of_starts text starts, ih]
        simp [Piece.worth, bind, Except.bind, pure, Except.pure]

theorem expand_escape (text : String) : expand resolve (escape text) = .ok text := by
  rw [expand_eq_expandFrom, escape, String.toList_ofList, expandFrom_escapeChar,
    String.ofList_toList]

end Template

namespace Dictionary

open Template

variable {dictionary after : Dictionary} {path : String}

/-- A text that has been written is found at its path, in every dictionary of the same tree. -/
theorem rawText_of_set {value : String} (written : dictionary.set path value = .ok after)
    {reader : Dictionary} (sameTree : reader.root = after.root) :
    reader.rawText path = .ok (some value) := by
  rcases of_write_eq_ok written with ⟨keys, read, _, isPut, _⟩
  rw [← outcome_eq_ok_iff, reader.outcome_rawText_of_keys read, sameTree, isPut,
    Node.look_put_self]

/-- Replacing the references in an escaped text gives the text, whatever the policy, the environment
and the tree are and however paths are looked up. So a text written in its escaped form is given
back by a lookup of the tree that substitutes; a lookup that does not gives the escaped form. -/
theorem substituteWith_escape (text : String) :
    (∀ (dictionary : Dictionary) (follow : String → Except Fault (Option String)),
      dictionary.substituteWith follow (escape text) = .ok text) ∧
    ∀ (dictionary after : Dictionary) (path : String),
      dictionary.set path (escape text) = .ok after →
      ∀ reader : Dictionary, reader.root = after.root →
        reader.get path = .ok (some
          (if reader.substitutesEnvironment || reader.substitutesConfiguration then text
          else escape text)) := by
  have replaced : ∀ (dictionary : Dictionary) (follow : String → Except Fault (Option String)),
      dictionary.substituteWith follow (escape text) = .ok text :=
    fun _ _ => expand_escape text
  refine ⟨replaced, ?_⟩
  intro dictionary after path written reader sameTree
  have found : reader.rawText path = .ok (some (escape text)) := rawText_of_set written sameTree
  have looked : ∀ follow, reader.getWith follow path = .ok (some
      (if reader.substitutesEnvironment || reader.substitutesConfiguration then text
      else escape text)) := by
    intro follow
    rw [getWith_of_text found, replaced]
    split <;> rfl
  exact looked _

/-- A text of a backslash, a dollar sign and an open brace is given back where the environment is
asked. -/
theorem substituteWith_escape_open_brace :
    ∃ after, ({ Dictionary.empty with substitutesEnvironment := true } : Dictionary).set "a.b"
        (escape "\\$\x7b") = .ok after ∧
      after.get "a.b" = .ok (some "\\$\x7b") := by
  have read : Path.tokenize "a.b" = .ok (["a", "b"].map Segment.key) := by decide
  rcases @exists_written { Dictionary.empty with substitutesEnvironment := true } _ _
    (some (escape "\\$\x7b")) read (Node.writable_none _) with ⟨after, written, _, samePolicy⟩
  have found := (substituteWith_escape "\\$\x7b").2 _ after "a.b" written after rfl
  rw [samePolicy.1] at found
  exact ⟨after, written, found⟩

/-- Where neither the environment nor the tree is asked, a lookup leaves the backslash in. -/
theorem get_escape_of_plain :
    ¬∀ (text : String) (dictionary after : Dictionary) (path : String),
      dictionary.set path (escape text) = .ok after → after.get path = .ok (some text) := by
  intro always
  have read : Path.tokenize "a" = .ok (["a"].map Segment.key) := by decide
  rcases @exists_written .empty _ _ (some (escape "$")) read (Node.writable_none _) with
    ⟨after, written, isPut, samePolicy⟩
  have plain : after.Plain := Plain.of_samePolicy ⟨rfl, rfl⟩ samePolicy
  have left : after.get "a" = .ok (some (escape "$")) := by
    rw [plain.get_eq_rawText]
    exact rawText_of_set written rfl
  rw [always "$" .empty after "a" written] at left
  exact absurd left (by decide)

end Dictionary

end ConfigTree
