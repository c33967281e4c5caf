import ConfigTree.KeyValue.OptionsDocument
import ConfigTree.Proofs.Json.Containers

/-!
# Options come back

Options are written as an object that names switches, in any order and with white space
and escapes as JSON has them. Reading such a text turns on the switches that it names
with `true` and no others. The induction goes along the fields, with the settings read
so far in front of those that are left.
-/

namespace ConfigTree.KeyValue

open Json

/-- The names of the switches in their order. -/
def switchNames : List String :=
  ["hash_comments", "semicolon_comments", "bang_comments", "sections", "strip_quotes",
    "equals_separator", "colon_separator", "allow_missing_values", "multiline"]

/-- The options that some settings give: a switch is on if it is set to true. -/
def Options.ofSettings (settings : List (String × Bool)) : Options where
  hashComments := ("hash_comments", true) ∈ settings
  semicolonComments := ("semicolon_comments", true) ∈ settings
  bangComments := ("bang_comments", true) ∈ settings
  sections := ("sections", true) ∈ settings
  stripQuotes := ("strip_quotes", true) ∈ settings
  equalsSeparator := ("equals_separator", true) ∈ settings
  colonSeparator := ("colon_separator", true) ∈ settings
  allowMissingValues := ("allow_missing_values", true) ∈ settings
  multiline := ("multiline", true) ∈ settings

/-- A truth value without quotes. -/
inductive WritesTruth : List Char → Bool → Prop where
  | true : WritesTruth ['t', 'r', 'u', 'e'] true
  | false : WritesTruth ['f', 'a', 'l', 's', 'e'] false

/-- A setting that is written with a colon behind the name of its switch. -/
inductive WritesSetting : List Char → String × Bool → Prop where
  | colon {key text : List Char} {name : String} {on : Bool} (isSwitch : name ∈ switchNames)
      (writtenKey : Spaced WritesString key name) (written : Spaced WritesTruth text on) :
      WritesSetting (key ++ ':' :: text) (name, on)

/-- An object of settings. -/
inductive WritesSettings : List Char → List (String × Bool) → Prop where
  | none {spaces : List Char} (blank : Spaces spaces) :
      WritesSettings ('{' :: spaces ++ ['}']) []
  | row {row : List Char} {settings : List (String × Bool)}
      (written : Row WritesSetting row settings) : WritesSettings ('{' :: row ++ ['}']) settings

variable {text word row rest left behind : List Char} {name : String} {on : Bool}
  {options changed : Options} {named known : List String} {settings done : List (String × Bool)}

/-- Turning a switch that has not been set adds the setting. -/
theorem exists_find?_switches (isSwitch : name ∈ switchNames) (fresh : name ∉ done.map Prod.fst)
    (on : Bool) :
    ∃ switch, (switches.find? fun switch => switch.name == name) = some switch ∧
      switch.turn on (.ofSettings done) = .ofSettings ((name, on) :: done) := by
  have unset : (name, true) ∉ done := by
    intro mem
    exact fresh (List.mem_map_of_mem mem)
  simp only [switchNames, List.mem_cons, List.not_mem_nil, or_false] at isSwitch
  rcases isSwitch with rfl | rfl | rfl | rfl | rfl | rfl | rfl | rfl | rfl <;>
    exact ⟨_, rfl, by cases on <;> simp [Options.ofSettings, unset]⟩

theorem WritesTruth.leaves (written : WritesTruth word on)
    (begins : skipSpace text = word ++ rest) : Leaves (readBoolean text) on rest := by
  unfold readBoolean
  cases written with
  | true =>
      rcases exists_readWord ['r', 'u', 'e'] rest with ⟨taken, read, isLeft⟩
      split
      · next skipped =>
        cases skipped.symm.trans begins
        refine ⟨(Rest.ofSkipSpace skipped).andMaybe taken, ?_, isLeft⟩
        exact congrArg (Except.bind · _) read
      · next skipped => cases skipped.symm.trans begins
      · next noTrue _ => exact absurd begins (noTrue _)
  | false =>
      rcases exists_readWord ['a', 'l', 's', 'e'] rest with ⟨taken, read, isLeft⟩
      split
      · next skipped => cases skipped.symm.trans begins
      · next skipped =>
        cases skipped.symm.trans begins
        refine ⟨(Rest.ofSkipSpace skipped).andMaybe taken, ?_, isLeft⟩
        exact congrArg (Except.bind · _) read
      · next noFalse => exact absurd begins (noFalse _)

/-- White space around a truth value is skipped in front of it and left to the next token behind
it. -/
theorem readBoolean_written (written : Spaced WritesTruth text on) (rest : List Char) :
    ∃ left, Leaves (readBoolean (text ++ rest)) on left ∧ skipSpace left = skipSpace rest := by
  cases written with
  | @around before word behind _ spacesBefore written spacesBehind =>
      refine ⟨behind ++ rest, written.leaves ?_, skipSpace_append spacesBehind rest⟩
      rw [List.append_assoc, List.append_assoc, skipSpace_append spacesBefore]
      cases written <;> exact skipSpace_cons rfl _

/-- A field that names a switch for the first time turns the switch. -/
theorem readSwitch_known {behindName value : List Char} {switch : Switch}
    (inQuotes : Leaves (readString text) name.toList behindName)
    (found : (switches.find? fun switch => switch.name == name) = some switch)
    (unnamed : name ∉ named)
    (colon : ∃ taken : Rest behindName, readColon behindName = .ok taken ∧ taken.text = value)
    (truth : Leaves (readBoolean value) on left) :
    Leaves (readSwitch named options text) (name :: named, switch.turn on options) left := by
  unfold readSwitch
  apply inQuotes.bind
  rintro taken rfl
  rcases colon with ⟨after, read, rfl⟩
  have isNew : named.contains name = false := by simpa using unnamed
  simp only [String.ofList_toList, found, isNew, Bool.false_eq_true, if_false, read]
  apply truth.bind
  intro behindTruth isLeft
  exact ⟨(taken.andThen after).andThen behindTruth, rfl, isLeft⟩

/-- A setting begins with a quote, and behind it the switch is read and turned. -/
theorem readSwitch_written {setting : String × Bool} (written : WritesSetting text setting)
    (fresh : setting.1 ∉ done.map Prod.fst) (rest : List Char) :
    ∃ quoted left, skipSpace (text ++ rest) = '"' :: quoted ∧ skipSpace left = skipSpace rest ∧
      Leaves (readSwitch (done.map Prod.fst) (.ofSettings done) quoted)
        ((setting :: done).map Prod.fst, .ofSettings (setting :: done)) left := by
  cases written with
  | @colon key value name on isSwitch writtenKey written =>
      cases writtenKey with
      | @around before _ behind _ spacesBefore writtenName spacesBehind =>
          cases writtenName with
          | @quoted inner _ writtenName =>
              rcases readBoolean_written written rest with ⟨left, truth, isLeft⟩
              have whole : before ++ ('"' :: inner ++ ['"']) ++ behind ++ ':' :: value ++ rest =
                  before ++ '"' :: (inner ++ '"' :: (behind ++ ':' :: (value ++ rest))) := by
                simp
              have inQuotes := readString_written writtenName (behind ++ ':' :: (value ++ rest))
              have colon := exists_readColon spacesBehind (value ++ rest)
              rcases exists_find?_switches isSwitch fresh on with ⟨switch, found, turned⟩
              refine ⟨inner ++ '"' :: (behind ++ ':' :: (value ++ rest)), left, ?_, isLeft, ?_⟩
              · rw [whole, skipSpace_append_cons spacesBefore rfl]
              · rw [← turned]
                exact readSwitch_known inQuotes found fresh colon truth

/-- Fields that are left stand behind the opening brace, or behind a field and a comma. -/
inductive InFront : Bool → List Char → List Char → Prop where
  | opened {fields : List Char} : InFront true fields fields
  | comma {text fields : List Char} (goesOn : skipSpace text = ',' :: fields) :
      InFront false text fields

theorem readNamed_close (closes : skipSpace text = '}' :: rest) (first : Bool) :
    readNamed first named options text = .ok (options, rest) := by
  rw [readNamed]
  split
  · next ends => cases ends.symm.trans closes
  · next closed =>
    cases closed.symm.trans closes
    rfl
  · next notClosing goesOn =>
    cases goesOn.symm.trans closes
    exact absurd rfl notClosing

/-- One field is read, and the reader goes on behind it. -/
theorem readNamed_field {first : Bool} {fields quoted : List Char}
    (inFront : InFront first text fields) (quote : skipSpace fields = '"' :: quoted)
    (field : Leaves (readSwitch named options quoted) (known, changed) left) :
    readNamed first named options text = readNamed false known changed left := by
  rcases field with ⟨taken, read, rfl⟩
  rw [readNamed]
  cases inFront with
  | opened =>
      split
      · next ends => cases ends.symm.trans quote
      · next closed => cases closed.symm.trans quote
      · next skipped =>
        cases skipped.symm.trans quote
        simp only [if_true, read]
        rfl
  | comma goesOn =>
      split
      · next ends => cases ends.symm.trans goesOn
      · next closed => cases closed.symm.trans goesOn
      · next skipped =>
        cases skipped.symm.trans goesOn
        simp only [Bool.false_eq_true, if_false, if_true]
        split
        · next ends => cases ends.symm.trans quote
        · next closed => cases closed.symm.trans quote
        · next inner =>
          cases inner.symm.trans quote
          simp only [read]
          rfl
        · next _ noQuote => exact absurd quote (noQuote quoted)

/-- The fields that are left are read behind the settings so far. -/
theorem readNamed_row {first : Bool} (written : Row WritesSetting row settings)
    (inFront : InFront first text (row ++ '}' :: rest))
    (distinct : (settings.map Prod.fst).Nodup)
    (fresh : ∀ setting ∈ settings, setting.1 ∉ done.map Prod.fst) :
    readNamed first (done.map Prod.fst) (.ofSettings done) text =
      .ok (.ofSettings (settings.reverse ++ done), rest) := by
  induction written generalizing first text done with
  | @last field setting written =>
      have unnamed := fresh setting List.mem_cons_self
      rcases readSwitch_written written unnamed ('}' :: rest) with
        ⟨quoted, left, quote, behind, field⟩
      rw [readNamed_field inFront quote field]
      apply readNamed_close
      rw [behind, skipSpace_cons rfl]
  | @more field row setting settings written others ih =>
      rw [List.map_cons, List.nodup_cons] at distinct
      have unnamed := fresh setting List.mem_cons_self
      rw [List.append_assoc, List.cons_append] at inFront
      rcases readSwitch_written written unnamed (',' :: (row ++ '}' :: rest)) with
        ⟨quoted, left, quote, behind, field⟩
      rw [readNamed_field inFront quote field, List.reverse_cons, List.append_assoc]
      have goesOn : skipSpace left = ',' :: (row ++ '}' :: rest) := by
        rw [behind, skipSpace_cons rfl]
      apply ih (.comma goesOn) distinct.2
      intro other mem named
      rw [List.map_cons, List.mem_cons] at named
      rcases named with same | earlier
      · exact distinct.1 (same ▸ List.mem_map_of_mem mem)
      · exact fresh other (List.mem_cons_of_mem setting mem) earlier

theorem ofSettings_reverse (settings : List (String × Bool)) :
    Options.ofSettings settings.reverse = .ofSettings settings := by
  simp [Options.ofSettings]

/-- An object of settings is read behind its opening brace. -/
theorem WritesSettings.exists_opened (written : WritesSettings text settings)
    (distinct : (settings.map Prod.fst).Nodup) (rest : List Char) :
    ∃ opened, text ++ rest = '{' :: opened ∧
      readNamed true [] {} opened = .ok (.ofSettings settings, rest) := by
  cases written with
  | @none spaces blank =>
      refine ⟨spaces ++ '}' :: rest, by simp, ?_⟩
      exact readNamed_close (skipSpace_append_cons blank rfl rest) true
  | @row row _ written =>
      refine ⟨row ++ '}' :: rest, by simp, ?_⟩
      have fresh : ∀ setting ∈ settings, setting.1 ∉ ([] : List (String × Bool)).map Prod.fst := by
        simp
      have inFront : InFront true (row ++ '}' :: rest) (row ++ '}' :: rest) := .opened
      have read := readNamed_row written inFront distinct fresh
      rw [List.append_nil, ofSettings_reverse] at read
      exact read

/-- Options that are written as an object of settings come back. -/
theorem Options.ofDocument_written {document : String}
    (written : Spaced WritesSettings document.toList settings)
    (distinct : (settings.map Prod.fst).Nodup) :
    Options.ofDocument document = .ok (.ofSettings settings) := by
  have read : readOptions document.toList = .ok (.ofSettings settings) := by
    generalize document.toList = text at written
    cases written with
    | @around before object behind _ spacesBefore written spacesBehind =>
        rcases written.exists_opened distinct behind with ⟨opened, isObject, named⟩
        have ended : readEnd behind = .ok () := by
          have blank : skipSpace behind = [] := by
            rw [← List.append_nil behind, skipSpace_append spacesBehind]
            rfl
          rw [readEnd, blank]
        rw [readOptions, List.append_assoc, isObject, skipSpace_append_cons spacesBefore rfl]
        simp only [named]
        change (readEnd behind >>= _) = _
        rw [ended]
        rfl
  rw [Options.ofDocument, read]
  rfl

end ConfigTree.KeyValue
