import ConfigTree.CommandLine.Arguments
import Mathlib.Data.List.TakeWhile
import Mathlib.Data.List.Induction

/-!
# What arguments ask for

Arguments are read in two steps here. `Gives` takes them apart: it lists, in their order, the texts
that stand by themselves, the options with their values and the flags, in any of the spellings that
the program knows. `Query.Asked` says when such a list is a query: which of its members count once,
and that overrides keep their order. Arguments are a query exactly when both hold.
-/

namespace ConfigTree.CommandLine

deriving instance DecidableEq for ValueOption, Flag

/-- A part of the arguments, apart from its spelling. -/
inductive Given where
  | positional (text : String)
  | value (option : ValueOption) (text : String)
  | flag (flag : Flag)
deriving DecidableEq

/-- Letters behind one dash are flags, and the last one may be an option that has its value behind
it or waits for one. -/
inductive Letters : List Char → List Given → Option ValueOption → Prop where
  | none : Letters [] [] none
  | flag {letter : Char} {more : List Char} {flag : Flag} {given : List Given}
      {waiting : Option ValueOption} (named : shortOption? letter = some (.inr flag))
      (rest : Letters more given waiting) : Letters (letter :: more) (.flag flag :: given) waiting
  | waits {letter : Char} {option : ValueOption}
      (named : shortOption? letter = some (.inl option)) : Letters [letter] [] (some option)
  | marked {letter : Char} {option : ValueOption} {value : List Char}
      (named : shortOption? letter = some (.inl option)) :
      Letters (letter :: '=' :: value) [.value option (.ofList value)] none
  | joined {letter first : Char} {option : ValueOption} {value : List Char}
      (named : shortOption? letter = some (.inl option)) (unmarked : first ≠ '=') :
      Letters (letter :: first :: value) [.value option (.ofList (first :: value))] none

/-- A name behind two dashes is a flag, or an option that has its value behind an equals sign or
waits for one. -/
inductive Long : List Char → List Given → Option ValueOption → Prop where
  | flag {name : List Char} {flag : Flag} (named : longOption? (.ofList name) = some (.inr flag)) :
      Long name [.flag flag] none
  | waits {name : List Char} {option : ValueOption}
      (named : longOption? (.ofList name) = some (.inl option)) : Long name [] (some option)
  | marked {name value : List Char} {option : ValueOption}
      (named : longOption? (.ofList name) = some (.inl option)) :
      Long (name ++ '=' :: value) [.value option (.ofList value)] none

/-- An argument that is no option: it does not begin with a dash, unless it is only a dash. -/
def Plain (argument : String) : Prop :=
  ∀ letter rest, argument.toList ≠ '-' :: letter :: rest

/-- What arguments give, where an option in front of them may wait for its value. -/
inductive Gives : Option ValueOption → List String → List Given → Prop where
  | none : Gives none [] []
  | behind {texts : List String} : Gives none ("--" :: texts) (texts.map .positional)
  | positional {text : String} {texts : List String} {given : List Given} (plain : Plain text)
      (rest : Gives none texts given) : Gives none (text :: texts) (.positional text :: given)
  | value {option : ValueOption} {text : String} {texts : List String} {given : List Given}
      (plain : Plain text) (rest : Gives none texts given) :
      Gives (some option) (text :: texts) (.value option text :: given)
  | short {argument : String} {letter : Char} {letters : List Char} {texts : List String}
      {given more : List Given} {waiting : Option ValueOption}
      (dashed : argument.toList = '-' :: letter :: letters)
      (spelled : Letters (letter :: letters) given waiting) (rest : Gives waiting texts more) :
      Gives none (argument :: texts) (given ++ more)
  | long {argument : String} {name : List Char} {texts : List String} {given more : List Given}
      {waiting : Option ValueOption} (dashed : argument.toList = '-' :: '-' :: name)
      (spelled : Long name given waiting) (rest : Gives waiting texts more) :
      Gives none (argument :: texts) (given ++ more)

/-- The texts that stand for themselves, in their order: the file and the path. -/
def places (given : List Given) : List String :=
  given.filterMap fun
    | .positional text => some text
    | _ => none

/-- The values that are given to an option, in their order. -/
def values (option : ValueOption) (given : List Given) : List String :=
  given.filterMap fun
    | .value other text => if other = option then some text else none
    | _ => none

/-- How often a flag is given. -/
def times (flag : Flag) (given : List Given) : Nat :=
  given.count (.flag flag)

/-- What is given is a query: a file, with a path or without one, and every option at most once
apart from overrides. -/
structure Query.Asked (query : Query) (given : List Given) : Prop where
  named : query.file ≠ ""
  places : places given = [query.file] ∧ query.path = "." ∨ places given = [query.file, query.path]
  default : values .default given = query.default.toList
  overrides : values .override given = query.overrides
  dialect : values .dialect given = query.dialect.toList
  environment : times .environment given = query.environment.toNat
  configuration : times .configuration given = query.configuration.toNat
  keys : times .keys given = query.keys.toNat
  version : times .version given = 0
  help : times .help given = 0

/-- Adds what is given next to what has been read so far. -/
def Progress.take (progress : Progress) : Given → Except NoQuery Progress
  | .positional text => progress.positional text
  | .value option text => progress.value option text
  | .flag flag => progress.flag flag

theorem bind_eq_ok_iff {ε α β : Type} {first : Except ε α} {next : α → Except ε β} {result : β} :
    first >>= next = .ok result ↔ ∃ middle, first = .ok middle ∧ next middle = .ok result := by
  cases first <;> simp [bind, Except.bind]

/-- A text is cut at its first equals sign, and not at all where it has none. -/
theorem cut_of_unmarked {name behind : List Char} (unmarked : '=' ∉ name)
    (ends : behind = [] ∨ behind.head? = some '=') :
    (name ++ behind).takeWhile (· ≠ '=') = name ∧
      (name ++ behind).dropWhile (· ≠ '=') = behind := by
  have passes : ∀ c ∈ name, decide (c ≠ '=') = true := by
    intro c mem
    rw [decide_eq_true_eq]
    rintro rfl
    exact unmarked mem
  rw [List.takeWhile_append_of_pos passes, List.dropWhile_append_of_pos passes]
  cases behind with
  | nil => simp
  | cons first rest => simp_all

theorem cut_of_no_mark {text : List Char} (unmarked : '=' ∉ text) :
    text.takeWhile (· ≠ '=') = text ∧ text.dropWhile (· ≠ '=') = [] := by
  simpa only [List.append_nil] using cut_of_unmarked unmarked (.inl rfl)

theorem cut_at_mark {name : List Char} (unmarked : '=' ∉ name) (value : List Char) :
    (name ++ '=' :: value).takeWhile (· ≠ '=') = name ∧
      (name ++ '=' :: value).dropWhile (· ≠ '=') = '=' :: value :=
  cut_of_unmarked unmarked (.inr rfl)

section Spelling

variable {progress final : Progress} {waiting : Option ValueOption} {given : List Given}

theorem letters_eq {text : List Char} (spelled : Letters text given waiting) :
    progress.letters text = (given.foldlM Progress.take progress).map (·, waiting) := by
  induction spelled generalizing progress with
  | none => rfl
  | @flag letter more flag given waiting named rest ih =>
      rw [List.foldlM_cons]
      simp only [Progress.letters, named, Progress.take]
      cases progress.flag flag with
      | error reason => rfl
      | ok next => exact ih
  | waits named => simp [Progress.letters, named, pure, Except.pure, Except.map]
  | @marked letter option value named =>
      simp only [Progress.letters, named, List.foldlM_cons, List.foldlM_nil, Progress.take]
      cases progress.value option (.ofList value) <;> rfl
  | @joined letter first option value named unmarked =>
      simp only [Progress.letters, named, List.foldlM_cons, List.foldlM_nil, Progress.take]
      split
      · contradiction
      · simp_all
      · cases progress.value option (.ofList (first :: value)) <;> rfl

theorem exists_letters {text : List Char} {result : Progress × Option ValueOption}
    (read : progress.letters text = .ok result) :
    ∃ given waiting, Letters text given waiting := by
  induction text generalizing progress with
  | nil => exact ⟨_, _, .none⟩
  | cons letter rest ih =>
      cases named : shortOption? letter with
      | none => simp [Progress.letters, named] at read
      | some option =>
          cases option with
          | inr flag =>
              simp only [Progress.letters, named] at read
              rcases bind_eq_ok_iff.mp read with ⟨next, _, read⟩
              rcases ih read with ⟨given, waiting, spelled⟩
              exact ⟨_, _, .flag named spelled⟩
          | inl option =>
              cases rest with
              | nil => exact ⟨_, _, .waits named⟩
              | cons first value =>
                  by_cases marked : first = '='
                  · subst marked
                    exact ⟨_, _, .marked named⟩
                  · exact ⟨_, _, .joined named marked⟩

theorem not_mem_of_longOption? {name : List Char} {option : ValueOption ⊕ Flag}
    (named : longOption? (.ofList name) = some option) : '=' ∉ name := by
  have known : String.ofList name ∈
      ["default", "set", "kv-options", "env", "config", "keys", "version", "help"] := by
    unfold longOption? at named
    split at named <;> simp_all
  have unmarked : ∀ known ∈
      ["default", "set", "kv-options", "env", "config", "keys", "version", "help"],
      '=' ∉ known.toList := by decide
  simpa using unmarked _ known

theorem long_eq {text : List Char} (spelled : Long text given waiting) :
    progress.long text = (given.foldlM Progress.take progress).map (·, waiting) := by
  cases spelled with
  | @flag _ flag named =>
      have cut := cut_of_no_mark (not_mem_of_longOption? named)
      rw [Progress.long, cut.1, cut.2]
      simp only [named, List.foldlM_cons, List.foldlM_nil, Progress.take]
      cases progress.flag flag <;> rfl
  | waits named =>
      have cut := cut_of_no_mark (not_mem_of_longOption? named)
      rw [Progress.long, cut.1, cut.2]
      simp [named, pure, Except.pure, Except.map]
  | @marked name value option named =>
      have cut := cut_at_mark (not_mem_of_longOption? named) value
      rw [Progress.long, cut.1, cut.2]
      simp only [named, List.foldlM_cons, List.foldlM_nil, Progress.take]
      cases progress.value option (.ofList value) <;> rfl

theorem exists_long {text : List Char} {result : Progress × Option ValueOption}
    (read : progress.long text = .ok result) : ∃ given waiting, Long text given waiting := by
  by_cases mark : '=' ∈ text
  · rcases List.eq_append_cons_of_mem mark with ⟨name, value, rfl, unmarked⟩
    have cut := cut_at_mark unmarked value
    rw [Progress.long, cut.1, cut.2] at read
    cases named : longOption? (.ofList name) with
    | none => simp [named] at read
    | some option =>
        cases option with
        | inl option => exact ⟨_, _, .marked named⟩
        | inr flag => simp [named] at read
  · have cut := cut_of_no_mark mark
    rw [Progress.long, cut.1, cut.2] at read
    cases named : longOption? (.ofList text) with
    | none => simp [named] at read
    | some option =>
        cases option with
        | inl option => exact ⟨_, _, .waits named⟩
        | inr flag => exact ⟨_, _, .flag named⟩

theorem Letters.head_ne {letter : Char} {letters : List Char}
    (spelled : Letters (letter :: letters) given waiting) : letter ≠ '-' := by
  rintro rfl
  cases spelled <;> contradiction

theorem Long.ne_nil {name : List Char} (spelled : Long name given waiting) : name ≠ [] := by
  intro empty
  cases spelled with
  | flag named =>
      subst empty
      contradiction
  | waits named =>
      subst empty
      contradiction
  | marked named => simp at empty

section Step

variable {argument : String} {rest : List String}

theorem read_of_plain (plain : Plain argument) :
    progress.read none (argument :: rest) =
      progress.positional argument >>= fun next => next.read none rest := by
  rw [Progress.read.eq_def]
  dsimp only
  split
  · exact absurd ‹argument.toList = ['-', '-']› (plain _ _)
  · exact absurd ‹argument.toList = _› (plain _ _)
  · exact absurd ‹argument.toList = _› (plain _ _)
  · exact absurd ‹argument.toList = _› (plain _ _)
  · contradiction
  · rfl

theorem read_waiting {option : ValueOption} (plain : Plain argument) :
    progress.read (some option) (argument :: rest) =
      progress.value option argument >>= fun next => next.read none rest := by
  rw [Progress.read.eq_def]
  dsimp only
  split
  · contradiction
  · contradiction
  · contradiction
  · exact absurd ‹argument.toList = _› (plain _ _)
  · simp_all
  · contradiction

theorem read_waiting_of_dashed {option : ValueOption} {letter : Char} {letters : List Char}
    (dashed : argument.toList = '-' :: letter :: letters) :
    progress.read (some option) (argument :: rest) = .error .misuse := by
  rw [Progress.read.eq_def]
  simp only [dashed]

theorem read_short {letter : Char} {letters : List Char}
    (dashed : argument.toList = '-' :: letter :: letters) (single : letter ≠ '-') :
    progress.read none (argument :: rest) =
      progress.letters (letter :: letters) >>= fun next => next.1.read next.2 rest := by
  rw [Progress.read.eq_def]
  simp only [dashed]
  split <;> simp_all

theorem read_long {name : List Char} (dashed : argument.toList = '-' :: '-' :: name)
    (nonempty : name ≠ []) :
    progress.read none (argument :: rest) =
      progress.long name >>= fun next => next.1.read next.2 rest := by
  rw [Progress.read.eq_def]
  simp only [dashed]

end Step

theorem positionals_eq {texts : List String} :
    texts.foldlM Progress.positional progress =
      (texts.map Given.positional).foldlM Progress.take progress := by
  rw [List.foldlM_map]
  rfl

theorem read_eq {arguments : List String} (gives : Gives waiting arguments given) :
    progress.read waiting arguments = given.foldlM Progress.take progress := by
  induction gives generalizing progress with
  | none => rfl
  | behind => exact positionals_eq
  | @positional text texts given plain rest ih =>
      rw [read_of_plain plain, List.foldlM_cons]
      simp only [ih, Progress.take]
  | @value option text texts given plain rest ih =>
      rw [read_waiting plain, List.foldlM_cons]
      simp only [ih, Progress.take]
  | @short _ _ _ _ given _ _ dashed spelled rest ih =>
      rw [read_short dashed spelled.head_ne, letters_eq spelled, List.foldlM_append]
      cases given.foldlM Progress.take progress with
      | error reason => rfl
      | ok next => exact ih
  | @long _ _ _ given _ _ dashed spelled rest ih =>
      rw [read_long dashed spelled.ne_nil, long_eq spelled, List.foldlM_append]
      cases given.foldlM Progress.take progress with
      | error reason => rfl
      | ok next => exact ih

theorem waiting_of_map {taken : Except NoQuery Progress} {result : Progress × Option ValueOption}
    (read : taken.map (·, waiting) = .ok result) : result.2 = waiting := by
  cases taken with
  | error reason => cases read
  | ok next =>
      cases read
      rfl

theorem exists_gives {arguments : List String}
    (read : progress.read waiting arguments = .ok final) :
    ∃ given, Gives waiting arguments given := by
  induction arguments generalizing progress waiting with
  | nil =>
      cases waiting with
      | none => exact ⟨_, .none⟩
      | some option => simp [Progress.read] at read
  | cons argument rest ih =>
      by_cases plain : Plain argument
      · cases waiting with
        | none =>
            rw [read_of_plain plain, bind_eq_ok_iff] at read
            rcases read with ⟨next, _, read⟩
            rcases ih read with ⟨given, gives⟩
            exact ⟨_, .positional plain gives⟩
        | some option =>
            rw [read_waiting plain, bind_eq_ok_iff] at read
            rcases read with ⟨next, _, read⟩
            rcases ih read with ⟨given, gives⟩
            exact ⟨_, .value plain gives⟩
      · unfold Plain at plain
        push Not at plain
        rcases plain with ⟨letter, more, dashed⟩
        cases waiting with
        | some option =>
            rw [read_waiting_of_dashed dashed] at read
            cases read
        | none =>
            by_cases double : letter = '-'
            · subst double
              cases more with
              | nil =>
                  obtain rfl : argument = "--" := String.toList_injective dashed
                  exact ⟨_, .behind⟩
              | cons first name =>
                  rw [read_long dashed (List.cons_ne_nil _ _), bind_eq_ok_iff] at read
                  rcases read with ⟨next, taken, read⟩
                  rcases exists_long taken with ⟨own, left, spelled⟩
                  rw [waiting_of_map ((long_eq spelled).symm.trans taken)] at read
                  rcases ih read with ⟨given, gives⟩
                  exact ⟨_, .long dashed spelled gives⟩
            · rw [read_short dashed double, bind_eq_ok_iff] at read
              rcases read with ⟨next, taken, read⟩
              rcases exists_letters taken with ⟨own, left, spelled⟩
              rw [waiting_of_map ((letters_eq spelled).symm.trans taken)] at read
              rcases ih read with ⟨given, gives⟩
              exact ⟨_, .short dashed spelled gives⟩

end Spelling

/-- Nothing is given that makes the arguments a misuse or asks for the version or for help. -/
@[mk_iff] structure Once (given : List Given) : Prop where
  places : (places given).length ≤ 2
  named : (CommandLine.places given)[0]? ≠ some ""
  values : ∀ option, option ≠ .override → (values option given).length ≤ 1
  flags : ∀ flag, times flag given ≤ 1
  version : times .version given = 0
  help : times .help given = 0

/-- What has been read where nothing is given too often. -/
def Progress.of (given : List Given) : Progress where
  file := (places given)[0]?
  path := (places given)[1]?
  default := (values .default given)[0]?
  environment := 0 < times .environment given
  configuration := 0 < times .configuration given
  overrides := values .override given
  keys := 0 < times .keys given
  dialect := (values .dialect given)[0]?

section Taking

variable {given : List Given} {final : Progress} {text : String} {option : ValueOption}
  {flag : Flag}

@[simp] theorem places_positional :
    places (given ++ [.positional text]) = places given ++ [text] := by
  simp [places]

@[simp] theorem places_value : places (given ++ [.value option text]) = places given := by
  simp [places]

@[simp] theorem places_flag : places (given ++ [.flag flag]) = places given := by
  simp [places]

@[simp] theorem values_positional :
    values option (given ++ [.positional text]) = values option given := by
  simp [values]

@[simp] theorem values_value {other : ValueOption} :
    values option (given ++ [.value other text]) =
      values option given ++ if other = option then [text] else [] := by
  by_cases same : other = option <;> simp [values, same]

@[simp] theorem values_flag : values option (given ++ [.flag flag]) = values option given := by
  simp [values]

@[simp] theorem times_positional : times flag (given ++ [.positional text]) = times flag given := by
  simp [times]

@[simp] theorem times_value : times flag (given ++ [.value option text]) = times flag given := by
  simp [times]

@[simp] theorem times_flag {other : Flag} :
    times flag (given ++ [.flag other]) = times flag given + if other = flag then 1 else 0 := by
  by_cases same : other = flag <;> simp [times, same]

theorem once_positional_iff :
    Once (given ++ [.positional text]) ↔
      Once given ∧ (places given = [] ∧ text ≠ "" ∨ ∃ file, places given = [file]) := by
  rcases before : places given with - | ⟨file, - | ⟨path, rest⟩⟩
  · simp [once_iff, before, and_comm, and_assoc]
  · simp [once_iff, before]
  · simp [once_iff, before]

theorem once_value_iff :
    Once (given ++ [.value option text]) ↔
      Once given ∧ (option ≠ .override → values option given = []) := by
  have longer (other : ValueOption) :
      (values other (given ++ [.value option text])).length =
        (values other given).length + if option = other then 1 else 0 := by
    by_cases same : option = other <;> simp [same]
  simp only [once_iff, places_value, times_value, longer]
  constructor
  · rintro ⟨few, named, values, rest⟩
    refine ⟨⟨few, named, fun other single => ?_, rest⟩, fun single => ?_⟩
    · exact Nat.le_of_add_right_le (values other single)
    · simpa using values option single
  · rintro ⟨⟨few, named, values, rest⟩, fresh⟩
    refine ⟨few, named, fun other single => ?_, rest⟩
    by_cases same : option = other
    · subst same
      simp [fresh single]
    · simpa [same] using values other single

theorem once_flag_iff :
    Once (given ++ [.flag flag]) ↔
      Once given ∧ times flag given = 0 ∧ flag ≠ .version ∧ flag ≠ .help := by
  simp only [once_iff, places_flag, values_flag, times_flag]
  constructor
  · rintro ⟨few, named, values, flags, version, help⟩
    refine ⟨⟨few, named, values, fun other => ?_, by omega, by omega⟩, ?_, ?_, ?_⟩
    · exact Nat.le_of_add_right_le (flags other)
    · simpa using flags flag
    · rintro rfl
      simp at version
    · rintro rfl
      simp at help
  · rintro ⟨⟨few, named, values, flags, version, help⟩, fresh, noVersion, noHelp⟩
    refine ⟨few, named, values, fun other => ?_, ?_, ?_⟩
    · by_cases same : flag = other
      · subst same
        simp [fresh]
      · simpa [same] using flags other
    · simp [version, noVersion]
    · simp [help, noHelp]

theorem take_of {item : Given} (once : Once given) :
    (Progress.of given).take item = .ok final ↔
      Once (given ++ [item]) ∧ .of (given ++ [item]) = final := by
  cases item with
  | positional text =>
      rw [once_positional_iff]
      simp only [Progress.take, Progress.positional, Progress.of, once]
      rcases before : places given with - | ⟨file, - | ⟨path, - | ⟨third, rest⟩⟩⟩
      · by_cases empty : text = "" <;> simp [empty, before]
      · simp [before]
      · simp
      · simp
  | value option text =>
      rw [once_value_iff]
      cases option with
      | override => simp [Progress.take, Progress.value, Progress.of, once]
      | default =>
          cases before : values .default given <;>
            simp [Progress.take, Progress.value, Progress.of, once, before]
      | dialect =>
          cases before : values .dialect given <;>
            simp [Progress.take, Progress.value, Progress.of, once, before]
  | flag flag =>
      rw [once_flag_iff]
      cases fresh : times flag given <;>
        cases flag <;> simp [Progress.take, Progress.flag, Progress.of, once, fresh]

theorem once_of_append {item : Given} (once : Once (given ++ [item])) : Once given := by
  cases item with
  | positional text => exact (once_positional_iff.mp once).1
  | value option text => exact (once_value_iff.mp once).1
  | flag flag => exact (once_flag_iff.mp once).1

/-- Members of what is given are taken one after the other, and each keeps what was known. -/
theorem take_all_iff :
    given.foldlM Progress.take {} = .ok final ↔ Once given ∧ .of given = final := by
  induction given using List.reverseRecOn generalizing final with
  | nil => simp [once_iff, Progress.of, places, values, times, pure, Except.pure]
  | append_singleton before item ih =>
      rw [List.foldlM_append, bind_eq_ok_iff]
      simp only [ih, List.foldlM_cons, List.foldlM_nil, bind_pure]
      constructor
      · rintro ⟨_, ⟨once, rfl⟩, taken⟩
        exact (take_of once).mp taken
      · rintro ⟨once, rfl⟩
        have onceBefore : Once before := once_of_append once
        exact ⟨_, ⟨onceBefore, rfl⟩, (take_of onceBefore).mpr ⟨once, rfl⟩⟩

end Taking

theorem eq_toList_iff {α : Type} {items : List α} {first : Option α} :
    items = first.toList ↔ items.length ≤ 1 ∧ items[0]? = first := by
  rcases items with - | ⟨item, - | ⟨second, rest⟩⟩ <;> cases first <;> simp

theorem eq_toNat_iff {count : Nat} {whether : Bool} :
    count = whether.toNat ↔ count ≤ 1 ∧ decide (0 < count) = whether := by
  cases whether <;> simp <;> omega

theorem asked_of {given : List Given} {query : Query} (once : Once given)
    (asked : (Progress.of given).query = .ok query) : query.Asked given := by
  rcases shape : places given with - | ⟨file, rest⟩
  · simp [Progress.query, Progress.of, shape] at asked
  · simp only [Progress.query, Progress.of, shape, List.getElem?_cons_zero] at asked
    cases asked
    have few := once.places
    have named := once.named
    rw [shape] at few named
    refine ⟨by simpa using named, ?_, ?_, rfl, ?_, ?_, ?_, ?_, once.version, once.help⟩
    · rcases rest with - | ⟨path, - | ⟨third, more⟩⟩
      · exact .inl ⟨shape, rfl⟩
      · exact .inr shape
      · simp at few
    · exact eq_toList_iff.mpr ⟨once.values .default (by simp), rfl⟩
    · exact eq_toList_iff.mpr ⟨once.values .dialect (by simp), rfl⟩
    · exact eq_toNat_iff.mpr ⟨once.flags .environment, rfl⟩
    · exact eq_toNat_iff.mpr ⟨once.flags .configuration, rfl⟩
    · exact eq_toNat_iff.mpr ⟨once.flags .keys, rfl⟩

theorem Query.Asked.once {given : List Given} {query : Query} (asked : query.Asked given) :
    Once given where
  places := by rcases asked.places with ⟨shape, _⟩ | shape <;> simp [shape]
  named := by rcases asked.places with ⟨shape, _⟩ | shape <;> simp [shape, asked.named]
  values
    | .default, _ => (eq_toList_iff.mp asked.default).1
    | .dialect, _ => (eq_toList_iff.mp asked.dialect).1
  flags
    | .environment => (eq_toNat_iff.mp asked.environment).1
    | .configuration => (eq_toNat_iff.mp asked.configuration).1
    | .keys => (eq_toNat_iff.mp asked.keys).1
    | .version => by simp [asked.version]
    | .help => by simp [asked.help]
  version := asked.version
  help := asked.help

theorem Query.Asked.query_of {given : List Given} {query : Query} (asked : query.Asked given) :
    (Progress.of given).query = .ok query := by
  have default := (eq_toList_iff.mp asked.default).2
  have dialect := (eq_toList_iff.mp asked.dialect).2
  have environment := (eq_toNat_iff.mp asked.environment).2
  have configuration := (eq_toNat_iff.mp asked.configuration).2
  have keys := (eq_toNat_iff.mp asked.keys).2
  rcases asked.places with ⟨shape, path⟩ | shape
  · simp only [Progress.query, Progress.of, shape, default, dialect, environment, configuration,
      keys, asked.overrides]
    simp [← path]
  · simp [Progress.query, Progress.of, shape, default, dialect, environment, configuration, keys,
      asked.overrides]

/-- Arguments are a query exactly when they spell one. -/
theorem ofArguments_eq_ok_iff {arguments : List String} {query : Query} :
    Query.ofArguments arguments = .ok query ↔
      ∃ given, Gives none arguments given ∧ query.Asked given := by
  have read_iff : Query.ofArguments arguments = .ok query ↔
      ∃ progress, Progress.read {} none arguments = .ok progress ∧ progress.query = .ok query :=
    bind_eq_ok_iff
  rw [read_iff]
  constructor
  · rintro ⟨progress, read, asked⟩
    rcases exists_gives read with ⟨given, gives⟩
    rw [read_eq gives, take_all_iff] at read
    rcases read with ⟨once, rfl⟩
    exact ⟨given, gives, asked_of once asked⟩
  · rintro ⟨given, gives, asked⟩
    refine ⟨.of given, ?_, asked.query_of⟩
    rw [read_eq gives, take_all_iff]
    exact ⟨asked.once, rfl⟩

end ConfigTree.CommandLine
