import ConfigTree.CommandLine.Run
import ConfigTree.Proofs.CommandLine.Arguments
import ConfigTree.Proofs.Dictionary.Write
import ConfigTree.Proofs.Files.Load
import ConfigTree.Proofs.KeyValue.OptionsDocument

/-!
# A query as a chain of steps

A query decodes its options, loads its file, applies its overrides one after the other
and then lists keys or looks up a value. `Ends` says how such a chain can end: with the
fault of the first step that fails, whatever would become of the steps behind it, or
with the text that the last step shows. A query has exactly one end, and the program
prints it: a text to the output, a fault to the errors, never something to both. In
front of a fault, or alone, the errors hold the lines of the log, if there are any.

The policy of a query counts for the lookup only. Writes do not look at it, so it does
not matter that it is set before the overrides. Arguments that are no query, such as
those that ask for the version, are answered without any of these steps.
-/

namespace ConfigTree.CommandLine

/-- The dictionary under the policy that a query asks for. -/
def Query.govern (query : Query) (environment : Environment) (dictionary : Dictionary) :
    Dictionary :=
  { dictionary with
    substitutesEnvironment := query.environment
    substitutesConfiguration := query.configuration
    environment := environment }

/-- The lookup of a query that does not ask for keys. -/
def Query.lookUp (query : Query) (dictionary : Dictionary) : Except Fault (Option String) :=
  match query.default with
  | some default => dictionary.getOr query.path default
  | none => dictionary.get query.path

/-- A text is a key and a value with an equals sign between them, which is the first in the text. -/
def Splits (text key value : String) : Prop :=
  text = key ++ "=" ++ value ∧ '=' ∉ key.toList

/-- Overrides are applied in order, each on what the ones before have left. -/
inductive Overridden : Dictionary → List String → Dictionary → Prop where
  | done {dictionary : Dictionary} : Overridden dictionary [] dictionary
  | next {dictionary middle after : Dictionary} {text key value : String} {texts : List String}
      (splits : Splits text key value)
      (written : dictionary.set (Text.trimmed key) value = .ok middle)
      (rest : Overridden middle texts after) : Overridden dictionary (text :: texts) after

/-- An override cannot be applied. -/
inductive Unapplied (dictionary : Dictionary) (text : String) : Fault → Prop where
  | unsplit (noMark : '=' ∉ text.toList) :
      Unapplied dictionary text
        { kind := .invalidOptions s!"Expected KEY=VALUE but got '{text}'"
          hint := some "Write overrides as --set server.port=8080"
          code := some 207 }
  | refused {key value : String} {fault : Fault} (splits : Splits text key value)
      (refused : dictionary.set (Text.trimmed key) value = .error fault) :
      Unapplied dictionary text fault

/-- What a query shows of a dictionary, or why it shows nothing. -/
inductive Shows (query : Query) (dictionary : Dictionary) : Except Fault String → Prop where
  | keys {names : List String} (asked : query.keys = true)
      (listed : dictionary.keys query.path = .ok names) :
      Shows query dictionary (.ok (String.join (names.map (· ++ "\n"))))
  | noKeys {fault : Fault} (asked : query.keys = true)
      (failed : dictionary.keys query.path = .error fault) : Shows query dictionary (.error fault)
  | value {text : Option String} (asked : query.keys = false)
      (found : query.lookUp dictionary = .ok text) :
      Shows query dictionary (.ok (text.getD "null" ++ "\n"))
  | noValue {fault : Fault} (asked : query.keys = false)
      (failed : query.lookUp dictionary = .error fault) : Shows query dictionary (.error fault)

section Ends

variable (files : FileSystem) (environment : Environment) (home : Option String) (query : Query)

/-- The options of key-value text that a query gives for its file, if it gives some. -/
inductive Query.Decoded (query : Query) : Option KeyValue.Options → Prop where
  | notGiven (notGiven : query.dialect = none) : Decoded query none
  | given {written : String} {options : KeyValue.Options} (given : query.dialect = some written)
      (decoded : KeyValue.Options.ofDocument written = .ok options) : Decoded query (some options)

/-- What a query loads, or why it loads nothing. Options are looked at before the file. -/
inductive Loads : Except Fault Dictionary → Prop where
  | undecoded {written message : String} (given : query.dialect = some written)
      (failed : KeyValue.Options.ofDocument written = .error message) :
      Loads (.error
        { kind := .invalidOptions s!"Invalid key/value options: {message}"
          hint := some "Pass a JSON object such as \x7b\"equals_separator\": true\x7d"
          code := some 206 })
  | decoded {options : Option KeyValue.Options} {result : Except Fault Dictionary}
      (decoded : query.Decoded options) (loads : Files.Loads files home options query.file result) :
      Loads result

/-- How a query ends: at its first step that fails, or with what it shows. -/
inductive Ends : Except Fault String → Prop where
  | unloaded {fault : Fault} (failed : Loads files home query (.error fault)) :
      Ends (.error fault)
  | unapplied {start middle : Dictionary} {before behind : List String} {text : String}
      {fault : Fault} (loaded : Loads files home query (.ok start))
      (split : query.overrides = before ++ text :: behind)
      (overridden : Overridden start before middle) (failed : Unapplied middle text fault) :
      Ends (.error fault)
  | shown {start after : Dictionary} {result : Except Fault String}
      (loaded : Loads files home query (.ok start))
      (overridden : Overridden start query.overrides after)
      (shows : Shows query (query.govern environment after) result) : Ends result

end Ends

/-- A fold stops at the first step that fails. -/
theorem foldlM_eq_error_iff {ε σ α : Type} {step : σ → α → Except ε σ} {state : σ}
    {items : List α} {error : ε} :
    items.foldlM step state = .error error ↔
      ∃ before item behind middle, items = before ++ item :: behind ∧
        before.foldlM step state = .ok middle ∧ step middle item = .error error := by
  induction items generalizing state with
  | nil =>
      constructor
      · rintro ⟨⟩
      · rintro ⟨before, item, behind, _, impossible, _⟩
        simp at impossible
  | cons first rest ih =>
      constructor
      · intro failed
        rw [List.foldlM_cons] at failed
        cases stepped : step state first with
        | error own =>
            rw [stepped] at failed
            cases failed
            exact ⟨[], first, rest, state, rfl, rfl, stepped⟩
        | ok next =>
            rw [stepped] at failed
            rcases ih.mp failed with ⟨before, item, behind, middle, rfl, passed, failedThere⟩
            refine ⟨first :: before, item, behind, middle, rfl, ?_, failedThere⟩
            rw [List.foldlM_cons, stepped]
            exact passed
      · rintro ⟨before, item, behind, middle, split, passed, failed⟩
        rw [split, List.foldlM_append, passed]
        change (item :: behind).foldlM step middle = .error error
        rw [List.foldlM_cons, failed]
        rfl

section Overrides

variable {dictionary after : Dictionary} {text key value : String} {texts : List String}
  {fault : Fault}

theorem readOverride_of_splits (splits : Splits text key value) :
    readOverride text = .ok (Text.trimmed key, value) := by
  rcases splits with ⟨rfl, unmarked⟩
  have characters : (key ++ "=" ++ value).toList = key.toList ++ '=' :: value.toList := by simp
  have cut := cut_at_mark unmarked value.toList
  rw [readOverride, characters, cut.1, cut.2]
  simp [Text.trimmed]

theorem readOverride_of_no_mark (noMark : '=' ∉ text.toList) :
    readOverride text = .error
      { kind := .invalidOptions s!"Expected KEY=VALUE but got '{text}'"
        hint := some "Write overrides as --set server.port=8080"
        code := some 207 } := by
  rw [readOverride, (cut_of_no_mark noMark).2]

theorem exists_splits_of_mark (mark : '=' ∈ text.toList) :
    ∃ key value, Splits text key value := by
  rcases List.eq_append_cons_of_mem mark with ⟨key, value, split, free⟩
  refine ⟨.ofList key, .ofList value, ?_, by simpa using free⟩
  apply String.toList_injective
  simp [split]

theorem override_of_splits (splits : Splits text key value) :
    override dictionary text = dictionary.set (Text.trimmed key) value := by
  rw [override, readOverride_of_splits splits]
  simp [bind, Except.bind]

theorem override_eq_ok_iff :
    override dictionary text = .ok after ↔
      ∃ key value, Splits text key value ∧ dictionary.set (Text.trimmed key) value = .ok after := by
  constructor
  · intro applied
    by_cases mark : '=' ∈ text.toList
    · rcases exists_splits_of_mark mark with ⟨key, value, splits⟩
      rw [override_of_splits splits] at applied
      exact ⟨key, value, splits, applied⟩
    · rw [override, readOverride_of_no_mark mark] at applied
      cases applied
  · rintro ⟨key, value, splits, written⟩
    rw [override_of_splits splits, written]

theorem override_eq_error_iff :
    override dictionary text = .error fault ↔ Unapplied dictionary text fault := by
  constructor
  · intro failed
    by_cases mark : '=' ∈ text.toList
    · rcases exists_splits_of_mark mark with ⟨key, value, splits⟩
      rw [override_of_splits splits] at failed
      exact .refused splits failed
    · rw [override, readOverride_of_no_mark mark] at failed
      cases failed
      exact .unsplit mark
  · intro unapplied
    cases unapplied with
    | unsplit noMark =>
        rw [override, readOverride_of_no_mark noMark]
        simp [bind, Except.bind]
    | refused splits refused => rw [override_of_splits splits, refused]

theorem overrides_eq_ok_iff :
    texts.foldlM override dictionary = .ok after ↔ Overridden dictionary texts after := by
  induction texts generalizing dictionary with
  | nil =>
      constructor
      · rintro ⟨⟩
        exact .done
      · rintro ⟨⟩
        rfl
  | cons text rest ih =>
      rw [List.foldlM_cons]
      constructor
      · intro applied
        cases first : override dictionary text with
        | error fault =>
            rw [first] at applied
            cases applied
        | ok middle =>
            rw [first] at applied
            rcases override_eq_ok_iff.mp first with ⟨key, value, splits, written⟩
            exact .next splits written (ih.mp applied)
      · intro overridden
        cases overridden with
        | next splits written rest =>
            rw [override_of_splits splits, written]
            exact ih.mpr rest

/-- The first override that cannot be applied gives the fault. -/
theorem overrides_eq_error_iff :
    texts.foldlM override dictionary = .error fault ↔
      ∃ before text behind middle, texts = before ++ text :: behind ∧
        Overridden dictionary before middle ∧ Unapplied middle text fault := by
  simp only [foldlM_eq_error_iff, overrides_eq_ok_iff, override_eq_error_iff]

end Overrides

section Policy

variable (query : Query) (environment : Environment) (dictionary : Dictionary)

theorem set_govern (path value : String) :
    (query.govern environment dictionary).set path value =
      (dictionary.set path value).map (query.govern environment) := by
  rw [Dictionary.set, Dictionary.set, Dictionary.write_eq, Dictionary.write_eq]
  have sameRoot : (query.govern environment dictionary).root = dictionary.root := rfl
  rw [sameRoot]
  cases Path.tokenize path with
  | error fault => rfl
  | ok segments =>
      simp only [Except.bind]
      cases Node.writableKeys [] dictionary.root segments <;> rfl

theorem override_govern (text : String) :
    override (query.govern environment dictionary) text =
      (override dictionary text).map (query.govern environment) := by
  unfold override
  cases readOverride text with
  | error fault => rfl
  | ok assignment => exact set_govern query environment dictionary assignment.1 assignment.2

/-- Overrides do not look at the policy. -/
theorem overrides_govern (texts : List String) :
    texts.foldlM override (query.govern environment dictionary) =
      (texts.foldlM override dictionary).map (query.govern environment) := by
  induction texts generalizing dictionary with
  | nil => rfl
  | cons text rest ih =>
      rw [List.foldlM_cons, List.foldlM_cons, override_govern]
      cases override dictionary text with
      | error fault => rfl
      | ok middle => exact ih middle

end Policy

/-- What a query shows of a dictionary under its policy. -/
def Query.shown (query : Query) (dictionary : Dictionary) : Except Fault String :=
  if query.keys then
    (dictionary.keys query.path).map fun names => String.join (names.map (· ++ "\n"))
  else
    (query.lookUp dictionary).map fun text => text.getD "null" ++ "\n"

section Answer

variable {files : FileSystem} {environment : Environment} {home : Option String} {query : Query}

theorem shows_iff {dictionary : Dictionary} {result : Except Fault String} :
    Shows query dictionary result ↔ query.shown dictionary = result := by
  constructor
  · intro shows
    cases shows <;> simp [Query.shown, *, Except.map]
  · rintro rfl
    cases asked : query.keys with
    | true =>
        cases answered : dictionary.keys query.path with
        | error fault =>
            simpa [Query.shown, asked, answered, Except.map] using Shows.noKeys asked answered
        | ok names =>
            simpa [Query.shown, asked, answered, Except.map] using Shows.keys asked answered
    | false =>
        cases answered : query.lookUp dictionary with
        | error fault =>
            simpa [Query.shown, asked, answered, Except.map] using Shows.noValue asked answered
        | ok text =>
            simpa [Query.shown, asked, answered, Except.map] using Shows.value asked answered

theorem loadFile_of_loads {result : Except Fault Dictionary}
    (loads : Loads files home query result) : loadFile files home query = result := by
  cases loads with
  | undecoded given failed =>
      simp [loadFile, given, readDialect, failed, Except.mapError, bind, Except.bind]
  | decoded decoded loads =>
      cases decoded with
      | notGiven notGiven => simp [loadFile, notGiven, loads.load_eq]
      | given given decoded =>
          simp [loadFile, given, readDialect, decoded, loads.loadWith_eq, Except.mapError, bind,
            Except.bind]

theorem exists_loads (files : FileSystem) (home : Option String) (query : Query) :
    ∃ result, Loads files home query result := by
  cases given : query.dialect with
  | none =>
      rcases Files.exists_loads files home none query.file with ⟨result, loads⟩
      exact ⟨result, .decoded (.notGiven given) loads⟩
  | some written =>
      cases decoded : KeyValue.Options.ofDocument written with
      | error message => exact ⟨_, .undecoded given decoded⟩
      | ok options =>
          rcases Files.exists_loads files home (some options) query.file with ⟨result, loads⟩
          exact ⟨result, .decoded (.given given decoded) loads⟩

theorem answer_eq :
    answer files environment home query =
      (loadFile files home query).bind fun start =>
        (query.overrides.foldlM override start).bind fun after =>
          query.shown (query.govern environment after) := by
  unfold answer
  cases loadFile files home query with
  | error fault => rfl
  | ok start =>
      change (query.overrides.foldlM override (query.govern environment start)).bind _ =
        (query.overrides.foldlM override start).bind _
      rw [overrides_govern]
      cases query.overrides.foldlM override start with
      | error fault => rfl
      | ok after =>
          simp only [Except.map, Except.bind, Query.shown, Query.lookUp]
          cases query.keys with
          | true => cases (query.govern environment after).keys query.path <;> rfl
          | false =>
              cases query.default with
              | none => cases (query.govern environment after).get query.path <;> rfl
              | some default =>
                  cases (query.govern environment after).getOr query.path default <;> rfl

theorem answer_of_ends {result : Except Fault String}
    (ends : Ends files environment home query result) :
    answer files environment home query = result := by
  rw [answer_eq]
  cases ends with
  | unloaded failed =>
      rw [loadFile_of_loads failed]
      rfl
  | @unapplied start middle before behind text fault loaded split overridden failed =>
      have stopped : query.overrides.foldlM override start = .error fault :=
        overrides_eq_error_iff.mpr ⟨before, text, behind, middle, split, overridden, failed⟩
      simp [loadFile_of_loads loaded, stopped, Except.bind]
  | @shown start after result loaded overridden shows =>
      have applied : query.overrides.foldlM override start = .ok after :=
        overrides_eq_ok_iff.mpr overridden
      simp [loadFile_of_loads loaded, applied, shows_iff.mp shows, Except.bind]

theorem exists_ends (files : FileSystem) (environment : Environment) (home : Option String)
    (query : Query) : ∃ result, Ends files environment home query result := by
  rcases exists_loads files home query with ⟨fault | start, loads⟩
  · exact ⟨_, .unloaded loads⟩
  · cases applied : query.overrides.foldlM override start with
    | error fault =>
        rcases overrides_eq_error_iff.mp applied with ⟨_, _, _, _, split, overridden, failed⟩
        exact ⟨_, .unapplied loads split overridden failed⟩
    | ok after =>
        exact ⟨_, .shown loads (overrides_eq_ok_iff.mp applied) (shows_iff.mpr rfl)⟩

theorem run_of_asked {arguments : List String} (asked : Query.ofArguments arguments = .ok query)
    (files : FileSystem) (environment : Environment) (home : Option String) (log : Log) :
    run files environment home log arguments =
      match answer files environment home query with
      | .ok text => .done 0 text (log.lines environment)
      | .error fault => .done 1 "" (log.lines environment ++ (fault.display ++ "\n")) := by
  rw [run, asked]
  rfl

/-- Options that are written as an object of settings are decoded to these settings. -/
theorem decoded_iff_of_written {written : String} {settings : List (String × Bool)}
    {options : Option KeyValue.Options} (given : query.dialect = some written)
    (writes : Json.Spaced KeyValue.WritesSettings written.toList settings)
    (distinct : (settings.map Prod.fst).Nodup) :
    query.Decoded options ↔ options = some (.ofSettings settings) := by
  have decoded := KeyValue.Options.ofDocument_written writes distinct
  constructor
  · intro isDecoded
    cases isDecoded with
    | notGiven notGiven => cases notGiven.symm.trans given
    | given other otherDecoded =>
        cases other.symm.trans given
        cases otherDecoded.symm.trans decoded
        rfl
  · rintro rfl
    exact .given given decoded

/-- A query is what the arguments give, with its overrides in their order and its options as the
settings that they are written with, and it has exactly one end. Where a step has failed, the fault
of the first such step is all that is printed, to the errors; otherwise the answer is all that is
printed, to the output. The lines of the log are printed to the errors first, and there are none if
the variable `RUST_LOG` is not set. -/
theorem run_of_query {arguments : List String} (asked : Query.ofArguments arguments = .ok query)
    (files : FileSystem) (environment : Environment) (home : Option String) (log : Log) :
    (∃ given, Gives none arguments given ∧ query.Asked given) ∧
      (∀ written settings, query.dialect = some written →
        Json.Spaced KeyValue.WritesSettings written.toList settings →
        (settings.map Prod.fst).Nodup →
        ∀ options, query.Decoded options ↔ options = some (.ofSettings settings)) ∧
      ∃ result, Ends files environment home query result ∧
        (∀ other, Ends files environment home query other → other = result) ∧
        run files environment home log arguments =
          (match result with
          | .ok text => .done 0 text (log.lines environment)
          | .error fault => .done 1 "" (log.lines environment ++ (fault.display ++ "\n"))) ∧
        (environment "RUST_LOG" = none →
          run files environment home log arguments =
            match result with
            | .ok text => .done 0 text ""
            | .error fault => .done 1 "" (fault.display ++ "\n")) := by
  rcases exists_ends files environment home query with ⟨result, ends⟩
  have answered : answer files environment home query = result := answer_of_ends ends
  have ran := run_of_asked asked files environment home log
  rw [answered] at ran
  refine ⟨ofArguments_eq_ok_iff.mp asked, ?_, result, ends, ?_, ran, ?_⟩
  · intro written settings given writes distinct options
    exact decoded_iff_of_written given writes distinct
  · intro other endsToo
    exact (answer_of_ends endsToo).symm.trans answered
  · intro unset
    rw [ran, log.silent environment unset]
    cases result with
    | ok text => rfl
    | error fault => exact congrArg (Outcome.done 1 "") String.empty_append

/-- The first override makes an object of a value, and the second refers to what it has written. -/
theorem run_of_query_overridden :
    Query.ofArguments ["~/m.ini", "m.b", "-cs", "m.a=1=2", "--set= m.b =$\x7bm.a\x7d"] =
        .ok
          { file := "~/m.ini"
            path := "m.b"
            configuration := true
            overrides := ["m.a=1=2", " m.b =$\x7bm.a\x7d"] } ∧
      Environment.empty "RUST_LOG" = none ∧
      run (fun name => if name = "home/m.ini" then .ok "m = x" else .error .missing) .empty
          (some "home") .empty ["~/m.ini", "m.b", "-cs", "m.a=1=2", "--set= m.b =$\x7bm.a\x7d"] =
        .done 0 "1=2\n" "" := by
  have asked : Query.ofArguments ["~/m.ini", "m.b", "-cs", "m.a=1=2", "--set= m.b =$\x7bm.a\x7d"] =
      .ok
        { file := "~/m.ini"
          path := "m.b"
          configuration := true
          overrides := ["m.a=1=2", " m.b =$\x7bm.a\x7d"] } := rfl
  have placed : FileName.Places (some "home") "~/m.ini" (.ok "home/m.ini") :=
    FileName.places_iff.mpr rfl
  have extended : FileName.Extended "home/m.ini" (some "ini") := FileName.extended_iff.mpr rfl
  have first : Splits "m.a=1=2" "m.a" "1=2" := ⟨rfl, by decide⟩
  have second : Splits " m.b =$\x7bm.a\x7d" " m.b " "$\x7bm.a\x7d" := ⟨rfl, by decide⟩
  have overridden : Overridden (.ofNode (.object [("m", .ofText "x")]))
      ["m.a=1=2", " m.b =$\x7bm.a\x7d"]
      (.ofNode (.object [("m", .object [("a", .ofText "1=2"), ("b", .ofText "$\x7bm.a\x7d")])])) :=
    .next first rfl (.next second rfl .done)
  have found :
      Dictionary.get
          { Dictionary.ofNode
              (.object [("m", .object [("a", .ofText "1=2"), ("b", .ofText "$\x7bm.a\x7d")])]) with
            substitutesConfiguration := true }
          "m.b" =
        .ok (some "1=2") := by decide +kernel
  have loaded : Files.Loads
      (fun name => if name = "home/m.ini" then .ok "m = x" else .error .missing) (some "home") none
      "~/m.ini" (KeyValue.load .ini "m = x") := .parsed placed (.ini rfl extended) (if_pos rfl)
  have isObject : KeyValue.load .ini "m = x" = .ok (.ofNode (.object [("m", .ofText "x")])) := rfl
  rw [isObject] at loaded
  rcases run_of_query asked
      (fun name => if name = "home/m.ini" then .ok "m = x" else .error .missing) .empty
      (some "home") .empty with ⟨_, _, result, _, unique, _, ran⟩
  have ends : .ok "1=2\n" = result := by
    apply unique
    refine .shown (.decoded (.notGiven rfl) loaded) overridden ?_
    exact @Shows.value _ _ (some "1=2") rfl found
  refine ⟨asked, rfl, ?_⟩
  rw [ran rfl, ← ends]

/-- Who asks for the version besides a query is told the version only, and lines of the log stand
beside an answer. -/
theorem run_of_version_or_logged :
    run (fun _ => .ok "a=1") .empty none .empty ["x.ini", "a"] = .done 0 "1\n" "" ∧
      run (fun _ => .ok "a=1") .empty none .empty ["x.ini", "a", "--version"] =
        .done 0 "confpath 0.1.0\n" "" ∧
      run (fun _ => .ok "a=1") (.ofTable [("RUST_LOG", "confpath=debug"), ("NO_COLOR", "1")]) none
          { lines := fun environment =>
              if environment "RUST_LOG" = none then ""
              else "2026-01-02T03:04:05.000006Z DEBUG confpath::config: " ++
                "loading config file path=x.ini format=\"ini\"\n" ++
                "2026-01-02T03:04:05.000007Z DEBUG confpath::parser: " ++
                "parsed key/value text entries=1\n"
            silent := fun _ unset => if_pos unset }
          ["x.ini", "a"] =
        .done 0 "1\n"
          ("2026-01-02T03:04:05.000006Z DEBUG confpath::config: " ++
            "loading config file path=x.ini format=\"ini\"\n" ++
            "2026-01-02T03:04:05.000007Z DEBUG confpath::parser: " ++
            "parsed key/value text entries=1\n") := by
  decide +kernel

end Answer

end ConfigTree.CommandLine
