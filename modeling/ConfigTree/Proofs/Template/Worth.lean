import ConfigTree.Proofs.Template.Cutting
import Mathlib.Data.List.Forall2
import Mathlib.Data.List.TakeWhile

/-!
# What a text is worth

The reader of a text goes through it character by character, in one of several
modes and with what it has read of a name. The worth of a cutting is said
without modes: the worths of its pieces one behind the other, up to the first
piece without one. Both agree, because a mode is left exactly where a rule of
the cutting ends a piece.
-/

namespace ConfigTree

namespace Template

variable (resolve : Reference → Except Fault String)

/-- What a piece is worth. -/
def Piece.worth : Piece → Except Fault String
  | .dollar => .ok "$"
  | .braced name default => resolve ⟨.ofList name, default.map .ofList⟩
  | .bare [] => .ok "$"
  | .bare (c :: name) => resolve ⟨.ofList (c :: name), none⟩
  | .character c => .ok (.singleton c)

/-- The reference that a piece is, if it is one. -/
def Piece.reference : Piece → Option Reference
  | .braced name default => some ⟨.ofList name, default.map .ofList⟩
  | .bare (c :: name) => some ⟨.ofList (c :: name), none⟩
  | .dollar | .bare [] | .character _ => none

/-- A text contains a reference. -/
def Refers (text : String) (reference : Reference) : Prop :=
  ∃ pieces unclosed, Cuts text.toList pieces unclosed ∧
    ∃ piece ∈ pieces, piece.reference = some reference

/-- What a cutting of the text is worth. -/
def worth (text : String) : List Piece → Option (List Char) → Except Fault String
  | [], none => .ok ""
  | [], some name => .error (unterminated text name)
  | piece :: pieces, unclosed => do
    let first ← piece.worth resolve
    return first ++ (← worth text pieces unclosed)

/-- The pieces are worth the texts, one by one. -/
def Worths : List Piece → List String → Prop :=
  List.Forall₂ fun piece text => piece.worth resolve = .ok text

variable {resolve}

theorem bareWorth_eq (name : List Char) :
    bareWorth resolve name = (Piece.bare name).worth resolve := by
  cases name with
  | nil => rfl
  | cons c name => simp [bareWorth, Piece.worth]

section Steps

variable (text : String) (name default : List Char) {c : Char} (rest : List Char)

theorem expandFrom_escaped :
    expandFrom resolve text .plain ('\\' :: '$' :: rest) = do
      return "$" ++ (← expandFrom resolve text .plain rest) := rfl

theorem expandFrom_brace :
    expandFrom resolve text .plain ('$' :: '{' :: rest) =
      expandFrom resolve text (.braced []) rest := rfl

theorem expandFrom_dollar {rest : List Char} (unbraced : rest.head? ≠ some '{') :
    expandFrom resolve text .plain ('$' :: rest) = expandFrom resolve text (.bare []) rest := by
  rw [expandFrom]
  rintro more rfl
  exact unbraced rfl

/-- Outside of references, a character where nothing begins is worth itself. -/
theorem expandFrom_character {rest : List Char} (goesOn : ¬Stop (c :: rest)) :
    expandFrom resolve text .plain (c :: rest) = do
      return String.singleton c ++ (← expandFrom resolve text .plain rest) := by
  rw [not_stop_cons_iff] at goesOn
  rw [expandFrom]
  · rintro more rfl rfl
    exact goesOn.2 ⟨rfl, rfl⟩
  · intro more dollar
    exact absurd dollar goesOn.1
  · exact goesOn.1

theorem expandFrom_bare_nil :
    expandFrom resolve text (.bare name) [] = bareWorth resolve name := rfl

theorem expandFrom_bare_escaped :
    expandFrom resolve text (.bare name) ('\\' :: '$' :: rest) = do
      let worth ← bareWorth resolve name
      return worth ++ "$" ++ (← expandFrom resolve text .plain rest) := rfl

/-- A dollar sign ends a name without braces and is read as it is outside of references. -/
theorem expandFrom_bare_dollar :
    expandFrom resolve text (.bare name) ('$' :: rest) = do
      let worth ← bareWorth resolve name
      return worth ++ (← expandFrom resolve text .plain ('$' :: rest)) := by
  by_cases brace : rest.head? = some '{'
  · rcases List.head?_eq_some_iff.mp brace with ⟨more, rfl⟩
    rfl
  · rw [expandFrom_dollar text brace, expandFrom]
    rintro more rfl
    exact brace rfl

theorem expandFrom_bare_character {rest : List Char} (goesOn : ¬Stop (c :: rest)) :
    expandFrom resolve text (.bare name) (c :: rest) =
      expandFrom resolve text (.bare (name ++ [c])) rest := by
  rw [not_stop_cons_iff] at goesOn
  rw [expandFrom]
  · rintro more rfl rfl
    exact goesOn.2 ⟨rfl, rfl⟩
  · intro more dollar
    exact absurd dollar goesOn.1
  · exact goesOn.1

theorem expandFrom_braced_nil :
    expandFrom resolve text (.braced name) [] = .error (unterminated text name) := rfl

theorem expandFrom_braced_close :
    expandFrom resolve text (.braced name) ('}' :: rest) = do
      let worth ← resolve ⟨.ofList name, none⟩
      return worth ++ (← expandFrom resolve text .plain rest) := rfl

theorem expandFrom_braced_colon :
    expandFrom resolve text (.braced name) (':' :: rest) =
      expandFrom resolve text (.default name []) rest := rfl

theorem expandFrom_braced_character (free : c ≠ ':' ∧ c ≠ '}') :
    expandFrom resolve text (.braced name) (c :: rest) =
      expandFrom resolve text (.braced (name ++ [c])) rest := by
  rw [expandFrom]
  · exact free.2
  · exact free.1

theorem expandFrom_default_nil :
    expandFrom resolve text (.default name default) [] = .error (unterminated text name) := rfl

theorem expandFrom_default_close :
    expandFrom resolve text (.default name default) ('}' :: rest) = do
      let worth ← resolve ⟨.ofList name, some (.ofList default)⟩
      return worth ++ (← expandFrom resolve text .plain rest) := rfl

theorem expandFrom_default_character (notClosing : c ≠ '}') :
    expandFrom resolve text (.default name default) (c :: rest) =
      expandFrom resolve text (.default name (default ++ [c])) rest := by
  rw [expandFrom]
  exact notClosing

end Steps

/-- Where a name without braces cannot go on, it ends and the reader is outside of references. -/
theorem expandFrom_bare_of_stop (text : String) (name : List Char) {rest : List Char}
    (stops : Stop rest) :
    expandFrom resolve text (.bare name) rest = do
      let first ← (Piece.bare name).worth resolve
      return first ++ (← expandFrom resolve text .plain rest) := by
  rw [← bareWorth_eq]
  cases stops with
  | done =>
      rw [expandFrom_bare_nil]
      cases bareWorth resolve name with
      | error fault => rfl
      | ok first => exact congrArg Except.ok String.append_empty.symm
  | escaped =>
      rw [expandFrom_bare_escaped, expandFrom_escaped]
      simp [String.append_assoc]
  | dollar => exact expandFrom_bare_dollar text name _

theorem expandFrom_bare_of_firstStop (text : String) (seen : List Char) {name rest : List Char}
    (first : FirstStop name rest) :
    expandFrom resolve text (.bare seen) (name ++ rest) =
      expandFrom resolve text (.bare (seen ++ name)) rest := by
  induction name generalizing seen with
  | nil => simp
  | cons c name ih =>
      rcases first.of_cons with ⟨goesOn, firstLater⟩
      rw [List.cons_append, expandFrom_bare_character text seen goesOn, ih _ firstLater,
        List.append_assoc, List.singleton_append]

theorem expandFrom_braced_append (text : String) (seen : List Char) {name : List Char}
    (free : ∀ c ∈ name, c ≠ ':' ∧ c ≠ '}') (rest : List Char) :
    expandFrom resolve text (.braced seen) (name ++ rest) =
      expandFrom resolve text (.braced (seen ++ name)) rest := by
  induction name generalizing seen with
  | nil => simp
  | cons c name ih =>
      rw [List.forall_mem_cons] at free
      rw [List.cons_append, expandFrom_braced_character text seen _ free.1, ih _ free.2,
        List.append_assoc, List.singleton_append]

theorem expandFrom_default_append (text : String) (name seen : List Char) {default : List Char}
    (closed : '}' ∉ default) (rest : List Char) :
    expandFrom resolve text (.default name seen) (default ++ rest) =
      expandFrom resolve text (.default name (seen ++ default)) rest := by
  induction default generalizing seen with
  | nil => simp
  | cons c default ih =>
      rw [List.mem_cons, not_or] at closed
      rw [List.cons_append, expandFrom_default_character text name seen _ (Ne.symm closed.1),
        ih _ closed.2, List.append_assoc, List.singleton_append]

theorem expandFrom_braced_of_open (text : String) {rest : List Char} (isOpen : '}' ∉ rest) :
    expandFrom resolve text (.braced []) rest =
      .error (unterminated text (rest.takeWhile (· != ':'))) := by
  by_cases colon : ':' ∈ rest
  · rcases List.eq_append_cons_of_mem colon with ⟨name, default, rfl, noColon⟩
    simp only [List.mem_append, List.mem_cons, not_or] at isOpen
    have upToColon : (name ++ ':' :: default).takeWhile (· != ':') = name := by
      rw [List.takeWhile_append_of_pos]
      · simp
      · intro c mem
        exact bne_iff_ne.mpr fun same => noColon (same ▸ mem)
    have free := name_free_of_notMem noColon isOpen.1
    have toEnd := @expandFrom_default_append resolve text name [] default isOpen.2.2 []
    rw [List.append_nil] at toEnd
    rw [upToColon, expandFrom_braced_append text [] free, expandFrom_braced_colon,
      List.nil_append, toEnd, expandFrom_default_nil]
  · have whole : rest.takeWhile (· != ':') = rest := by
      rw [List.takeWhile_eq_self_iff]
      intro c mem
      exact bne_iff_ne.mpr fun same => colon (same ▸ mem)
    have free := name_free_of_notMem colon isOpen
    have toEnd := @expandFrom_braced_append resolve text [] rest free []
    rw [List.append_nil] at toEnd
    rw [whole, toEnd, expandFrom_braced_nil, List.nil_append]

/-- The reader goes through the first piece and puts in what it is worth. -/
theorem expandFrom_of_starts (text : String) {whole rest : List Char} {piece : Piece}
    (starts : Starts whole piece rest) :
    expandFrom resolve text .plain whole = do
      let first ← piece.worth resolve
      return first ++ (← expandFrom resolve text .plain rest) := by
  cases starts with
  | dollar =>
      rw [expandFrom_escaped]
      rfl
  | @braced name rest free =>
      rw [expandFrom_brace, expandFrom_braced_append text [] free, expandFrom_braced_close]
      rfl
  | @defaulted name default rest free closed =>
      rw [expandFrom_brace, expandFrom_braced_append text [] free, expandFrom_braced_colon,
        expandFrom_default_append text _ [] closed, expandFrom_default_close]
      rfl
  | @bare name rest unbraced first =>
      rw [expandFrom_dollar text (first.head?_append_ne_brace unbraced),
        expandFrom_bare_of_firstStop text [] first, expandFrom_bare_of_stop text _ first.stops]
      rfl
  | character free unescaped =>
      rw [expandFrom_character text (not_stop_cons_iff.mpr ⟨free, unescaped⟩)]
      rfl

/-- The reader computes what a cutting is worth. -/
theorem expandFrom_of_cuts (text : String) {whole : List Char} {pieces : List Piece}
    {unclosed : Option (List Char)} (cuts : Cuts whole pieces unclosed) :
    expandFrom resolve text .plain whole = worth resolve text pieces unclosed := by
  induction cuts with
  | done => rfl
  | unclosed isOpen => exact expandFrom_braced_of_open text isOpen
  | piece starts cuts ih => rw [expandFrom_of_starts text starts, ih, worth]

/-- A text without a dollar sign is handed back by the reader as well. -/
theorem expandFrom_of_no_dollar (text : String) {whole : List Char} (free : '$' ∉ whole) :
    expandFrom resolve text .plain whole = .ok (.ofList whole) := by
  induction whole with
  | nil => rfl
  | cons c rest ih =>
      simp only [List.mem_cons, not_or] at free
      have goesOn : ¬Stop (c :: rest) := by
        rw [not_stop_cons_iff]
        refine ⟨Ne.symm free.1, ?_⟩
        rintro ⟨_, dollar⟩
        exact free.2 (List.mem_of_mem_head? dollar)
      rw [expandFrom_character text goesOn, ih free.2]
      simp [bind, Except.bind, pure, Except.pure]

theorem expand_eq_expandFrom (text : String) :
    expand resolve text = expandFrom resolve text .plain text.toList := by
  unfold expand
  split
  · rfl
  · next free =>
    rw [expandFrom_of_no_dollar text (by simpa using free), String.ofList_toList]

example : expand (fun reference => .ok (reference.name ++ reference.default.getD ""))
    "\\$a ${b:c}$d$" = .ok "$a bcd$" := by decide

theorem worth_append {text : String} {before behind : List Piece} {texts : List String}
    {unclosed : Option (List Char)} (worths : Worths resolve before texts) :
    worth resolve text (before ++ behind) unclosed = do
      return String.join texts ++ (← worth resolve text behind unclosed) := by
  induction worths with
  | nil =>
      rw [List.nil_append]
      cases worth resolve text behind unclosed <;> simp
  | cons first rest ih =>
      rw [List.cons_append, worth, first, ih]
      cases worth resolve text behind unclosed with
      | error fault => rfl
      | ok last => simp [bind, Except.bind, pure, Except.pure, String.append_assoc]

theorem worth_of_worths {text : String} {pieces : List Piece} {texts : List String}
    (worths : Worths resolve pieces texts) (unclosed : Option (List Char)) :
    worth resolve text pieces unclosed =
      match unclosed with
      | none => .ok (String.join texts)
      | some name => .error (unterminated text name) := by
  rw [← List.append_nil pieces, worth_append worths]
  cases unclosed <;> simp [worth]

theorem worth_of_failing {text : String} {before : List Piece} {texts : List String}
    {failing : Piece} {fault : Fault} (worths : Worths resolve before texts)
    (failed : failing.worth resolve = .error fault) (behind : List Piece)
    (unclosed : Option (List Char)) :
    worth resolve text (before ++ failing :: behind) unclosed = .error fault := by
  rw [worth_append worths, worth, failed]
  rfl

/-- All pieces have a worth, or there is a first one without. -/
theorem worths_or_failing (pieces : List Piece) :
    (∃ texts, Worths resolve pieces texts) ∨
      ∃ before texts failing behind fault, pieces = before ++ failing :: behind ∧
        Worths resolve before texts ∧ failing.worth resolve = .error fault := by
  induction pieces with
  | nil => exact .inl ⟨[], .nil⟩
  | cons piece pieces ih =>
      cases first : piece.worth resolve with
      | error fault => exact .inr ⟨[], [], piece, pieces, fault, rfl, .nil, first⟩
      | ok text =>
          rcases ih with
            ⟨texts, worths⟩ | ⟨before, texts, failing, behind, fault, rfl, worths, failed⟩
          · exact .inl ⟨text :: texts, .cons first worths⟩
          · exact .inr ⟨piece :: before, text :: texts, failing, behind, fault, rfl,
              .cons first worths, failed⟩

/-- A cutting has a worth exactly if all its pieces have one and no brace is open. -/
theorem worth_eq_ok_iff {text result : String} {pieces : List Piece}
    {unclosed : Option (List Char)} :
    worth resolve text pieces unclosed = .ok result ↔
      unclosed = none ∧ ∃ texts, Worths resolve pieces texts ∧ result = String.join texts := by
  constructor
  · intro whole
    rcases @worths_or_failing resolve pieces with
      ⟨texts, worths⟩ | ⟨_, _, _, _, _, rfl, worths, failed⟩
    · rw [worth_of_worths worths] at whole
      cases unclosed with
      | none => exact ⟨rfl, texts, worths, (Except.ok.inj whole).symm⟩
      | some name => cases whole
    · rw [worth_of_failing worths failed] at whole
      cases whole
  · rintro ⟨rfl, texts, worths, rfl⟩
    exact worth_of_worths worths none

/-- The first piece without a worth decides the fault; an open brace is the fault if there is no
such piece. -/
theorem worth_eq_error_iff {text : String} {fault : Fault} {pieces : List Piece}
    {unclosed : Option (List Char)} :
    worth resolve text pieces unclosed = .error fault ↔
      (∃ before texts failing behind, pieces = before ++ failing :: behind ∧
        Worths resolve before texts ∧ failing.worth resolve = .error fault) ∨
      ∃ name texts, unclosed = some name ∧ Worths resolve pieces texts ∧
        fault = unterminated text name := by
  constructor
  · intro whole
    rcases @worths_or_failing resolve pieces with
      ⟨texts, worths⟩ | ⟨before, texts, failing, behind, _, rfl, worths, failed⟩
    · rw [worth_of_worths worths] at whole
      cases unclosed with
      | none => cases whole
      | some name => exact .inr ⟨name, texts, rfl, worths, (Except.error.inj whole).symm⟩
    · rw [worth_of_failing worths failed] at whole
      cases whole
      exact .inl ⟨before, texts, failing, behind, rfl, worths, failed⟩
  · rintro (⟨before, texts, failing, behind, rfl, worths, failed⟩ | ⟨name, texts, rfl, worths, rfl⟩)
    · exact worth_of_failing worths failed behind unclosed
    · exact worth_of_worths worths (some name)

/-- A piece is worth what its reference is worth, or always the same text. -/
theorem Piece.reference_or_text (piece : Piece) :
    (∃ reference, piece.reference = some reference ∧
      ∀ resolve, piece.worth resolve = resolve reference) ∨
      piece.reference = none ∧ ∃ text, ∀ resolve, piece.worth resolve = .ok text := by
  cases piece with
  | dollar => exact .inr ⟨rfl, "$", fun _ => rfl⟩
  | braced name default => exact .inl ⟨_, rfl, fun _ => rfl⟩
  | bare name =>
      cases name with
      | nil => exact .inr ⟨rfl, "$", fun _ => rfl⟩
      | cons c name => exact .inl ⟨_, rfl, fun _ => rfl⟩
  | character c => exact .inr ⟨rfl, .singleton c, fun _ => rfl⟩

theorem Piece.worth_of_reference_eq_some {piece : Piece} {reference : Reference}
    (isReference : piece.reference = some reference) :
    piece.worth resolve = resolve reference := by
  rcases piece.reference_or_text with ⟨own, isOwn, worths⟩ | ⟨isNone, _⟩
  · cases isOwn.symm.trans isReference
    exact worths resolve
  · cases isNone.symm.trans isReference

theorem Piece.worth_congr {resolve' : Reference → Except Fault String} {piece : Piece}
    (agree : ∀ reference, piece.reference = some reference →
      resolve reference = resolve' reference) :
    piece.worth resolve = piece.worth resolve' := by
  rcases piece.reference_or_text with ⟨reference, isReference, worths⟩ | ⟨_, text, worths⟩
  · rw [worths, worths, agree reference isReference]
  · rw [worths, worths]

theorem Piece.of_worth_eq_error {piece : Piece} {fault : Fault}
    (failed : piece.worth resolve = .error fault) :
    ∃ reference, piece.reference = some reference ∧ resolve reference = .error fault := by
  rcases piece.reference_or_text with ⟨reference, isReference, worths⟩ | ⟨_, text, worths⟩
  · exact ⟨reference, isReference, (worths resolve).symm.trans failed⟩
  · cases (worths resolve).symm.trans failed

theorem worth_congr {resolve' : Reference → Except Fault String} {text : String}
    {pieces : List Piece} {unclosed : Option (List Char)}
    (agree : ∀ piece ∈ pieces, piece.worth resolve = piece.worth resolve') :
    worth resolve text pieces unclosed = worth resolve' text pieces unclosed := by
  induction pieces with
  | nil => cases unclosed <;> rfl
  | cons piece pieces ih =>
      rw [List.forall_mem_cons] at agree
      rw [worth, worth, agree.1, ih agree.2]

theorem Worths.exists_of_mem {pieces : List Piece} {texts : List String} {piece : Piece}
    (worths : Worths resolve pieces texts) (mem : piece ∈ pieces) :
    ∃ text, piece.worth resolve = .ok text := by
  induction worths with
  | nil => cases mem
  | cons first rest ih =>
      rcases List.mem_cons.mp mem with rfl | later
      · exact ⟨_, first⟩
      · exact ih later

theorem worth_of_mem_of_eq_error {text : String} {pieces : List Piece}
    {unclosed : Option (List Char)} {piece : Piece} {fault : Fault} (mem : piece ∈ pieces)
    (failed : piece.worth resolve = .error fault) :
    ∃ fault, worth resolve text pieces unclosed = .error fault := by
  cases whole : worth resolve text pieces unclosed with
  | error first => exact ⟨first, rfl⟩
  | ok result =>
      rcases worth_eq_ok_iff.mp whole with ⟨_, texts, worths, _⟩
      rcases worths.exists_of_mem mem with ⟨own, hasWorth⟩
      cases failed.symm.trans hasWorth

end Template

end ConfigTree
