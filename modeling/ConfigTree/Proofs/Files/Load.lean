import ConfigTree.Files.Load
import Mathlib.Data.List.DropRight

/-!
# Where a file lies and how it is read

The place that a file name stands for, and its extension, are said here on the name cut
at its slashes. What becomes of a file follows from them: `Files.Loads` has one
constructor for each way in which loading can end. A name without a place and an
extension without a format are found before the file is read, and a file that cannot be
read before its text is looked at. With options of key-value text the extension does
not count.
-/

namespace ConfigTree

namespace FileName

/-- A component of a name that stays where it is. -/
def Idle (component : List Char) : Prop :=
  component = [] ∨ component = ['.']

/-- The place that a name stands for. A tilde as its first component stands for the home directory,
and for nothing if there is none; idle components behind the tilde and at the end are left out. -/
inductive Places (home : Option String) (name : String) : Except Fault String → Prop where
  | plain (noTilde : (name.toList.splitOn '/').head? ≠ some ['~']) : Places home name (.ok name)
  | inHome {directory : String} {front core back : List (List Char)}
      (isHome : home = some directory)
      (split : name.toList.splitOn '/' = ['~'] :: (front ++ core ++ back))
      (frontIdle : ∀ component ∈ front, Idle component)
      (begins : ∀ component, core.head? = some component → ¬Idle component)
      (ends : ∀ component, core.getLast? = some component → ¬Idle component)
      (backIdle : ∀ component ∈ back, Idle component) :
      Places home name
        (.ok (directory ++
          (if directory = "" ∨ directory.toList.getLast? = some '/' then "" else "/") ++
          .ofList (List.intercalate ['/'] core)))
  | homeless {rest : List (List Char)} (noHome : home = none)
      (split : name.toList.splitOn '/' = ['~'] :: rest) :
      Places home name (.error
        { kind := .file "Could not determine home directory for ~ expansion" name
          hint := some "Check file path and permissions"
          code := some 700 })

/-- A name has an extension: what stands behind the last dot of its last component that is not idle,
in lower-case ASCII letters. Something has to stand in front of the dot, and two dots lead up. -/
def HasExtension (name extension : String) : Prop :=
  ∃ front stem letters idle,
    name.toList.splitOn '/' = front ++ (stem ++ '.' :: letters) :: idle ∧
      (∀ component ∈ idle, Idle component) ∧ stem ≠ [] ∧ '.' ∉ letters ∧
      stem ++ '.' :: letters ≠ ['.', '.'] ∧ extension = .ofList (letters.map Char.toLower)

/-- The extension of a name, or that it has none. -/
inductive Extended (name : String) : Option String → Prop where
  | extension {extension : String} (has : HasExtension name extension) :
      Extended name (some extension)
  | none (hasNone : ∀ extension, ¬HasExtension name extension) : Extended name none

section Places

variable {home : Option String} {name : String} {result : Except Fault String}

theorem isIdle_iff {component : List Char} : isIdle component = true ↔ Idle component := by
  simp [isIdle, Idle]

theorem isIdle_eq_false_iff {component : List Char} :
    isIdle component = false ↔ ¬Idle component := by
  rw [← isIdle_iff, Bool.not_eq_true]

theorem dropWhile_isIdle_append {front rest : List (List Char)}
    (frontIdle : ∀ component ∈ front, Idle component)
    (begins : ∀ component, rest.head? = some component → ¬Idle component) :
    (front ++ rest).dropWhile isIdle = rest := by
  rw [List.dropWhile_append_of_pos fun component mem => isIdle_iff.mpr (frontIdle component mem)]
  cases rest with
  | nil => rfl
  | cons first more => exact List.dropWhile_cons_of_neg (isIdle_iff.not.mpr (begins first rfl))

theorem trimIdle_between {front core back : List (List Char)}
    (frontIdle : ∀ component ∈ front, Idle component)
    (begins : ∀ component, core.head? = some component → ¬Idle component)
    (ends : ∀ component, core.getLast? = some component → ¬Idle component)
    (backIdle : ∀ component ∈ back, Idle component) :
    trimIdle (front ++ core ++ back) = core := by
  have reversedIdle : ∀ component ∈ back.reverse, Idle component := by
    intro component mem
    exact backIdle component (List.mem_reverse.mp mem)
  cases core with
  | nil =>
      rw [trimIdle, List.append_nil]
      have allIdle : ∀ component ∈ front ++ back, Idle component := by
        simpa [or_imp, forall_and] using ⟨frontIdle, backIdle⟩
      rw [← List.append_nil (front ++ back), dropWhile_isIdle_append allIdle (by simp)]
      rfl
  | cons first more =>
      have behindFront : (front ++ first :: more ++ back).dropWhile isIdle =
          first :: more ++ back := by
        rw [List.append_assoc]
        exact dropWhile_isIdle_append frontIdle begins
      rw [trimIdle, behindFront, List.reverse_append, dropWhile_isIdle_append reversedIdle,
        List.reverse_reverse]
      rw [List.head?_reverse]
      exact ends

/-- Components are what is left of them between idle ones. -/
theorem exists_between_idle (components : List (List Char)) :
    ∃ front core back, components = front ++ core ++ back ∧
      (∀ component ∈ front, Idle component) ∧
      (∀ component, core.head? = some component → ¬Idle component) ∧
      (∀ component, core.getLast? = some component → ¬Idle component) ∧
      ∀ component ∈ back, Idle component := by
  have atEnd : (components.dropWhile isIdle).rdropWhile isIdle ++
      (components.dropWhile isIdle).rtakeWhile isIdle = components.dropWhile isIdle :=
    List.rdropWhile_append_rtakeWhile
  refine ⟨components.takeWhile isIdle, (components.dropWhile isIdle).rdropWhile isIdle,
    (components.dropWhile isIdle).rtakeWhile isIdle, ?_, ?_, ?_, ?_, ?_⟩
  · rw [List.append_assoc, atEnd, List.takeWhile_append_dropWhile]
  · exact fun component mem => isIdle_iff.mp (List.mem_takeWhile_imp mem)
  · intro component begins
    have stops := List.head?_dropWhile_not isIdle components
    rcases List.rdropWhile_prefix isIdle (components.dropWhile isIdle) with ⟨behind, split⟩
    rw [← split, List.head?_append, begins] at stops
    exact isIdle_iff.not.mp (Bool.eq_false_iff.mp stops)
  · intro component ends
    rw [List.getLast?_eq_some_getLast (List.ne_nil_of_mem (List.mem_of_getLast? ends)),
      Option.some.injEq] at ends
    rw [← ends, ← isIdle_iff]
    exact List.rdropWhile_last_not isIdle _ _
  · exact fun component mem => isIdle_iff.mp (List.mem_rtakeWhile_imp mem)

theorem Places.expandHome_eq (places : Places home name result) :
    expandHome home name = result := by
  unfold expandHome components
  cases places with
  | plain noTilde =>
      split
      · next rest split => exact absurd (by rw [split]; rfl) noTilde
      · rfl
  | inHome isHome split frontIdle begins ends backIdle =>
      rw [split, isHome]
      change Except.ok (within _ (join (trimIdle _))) = _
      rw [trimIdle_between frontIdle begins ends backIdle]
      simp [within, join, List.intercalate]
  | homeless noHome split =>
      rw [split, noHome]
      rfl

theorem exists_places (home : Option String) (name : String) :
    ∃ result, Places home name result := by
  by_cases tilde : (name.toList.splitOn '/').head? = some ['~']
  · rcases List.head?_eq_some_iff.mp tilde with ⟨rest, split⟩
    cases isHome : home with
    | none => exact ⟨_, .homeless rfl split⟩
    | some directory =>
        rcases exists_between_idle rest with
          ⟨front, core, back, rfl, frontIdle, begins, ends, backIdle⟩
        exact ⟨_, .inHome rfl split frontIdle begins ends backIdle⟩
  · exact ⟨_, .plain tilde⟩

theorem places_iff : Places home name result ↔ expandHome home name = result := by
  constructor
  · exact Places.expandHome_eq
  · rintro rfl
    rcases exists_places home name with ⟨result, places⟩
    rwa [places.expandHome_eq]

end Places

section Extension

variable {name extension : String} {component letters : List Char}

theorem passes_of_no_dot (noDot : '.' ∉ letters) :
    ∀ c ∈ letters.reverse, decide (c ≠ '.') = true := by
  intro c mem
  apply decide_eq_true
  rintro rfl
  exact noDot (List.mem_reverse.mp mem)

theorem extensionOf_append {stem : List Char} (noDot : '.' ∉ letters) :
    extensionOf (stem ++ '.' :: letters) = if stem = [] then none else some letters := by
  have behind : (stem ++ '.' :: letters).reverse.takeWhile (· ≠ '.') = letters.reverse := by
    rw [List.reverse_append, List.reverse_cons, List.append_assoc,
      List.takeWhile_append_of_pos (passes_of_no_dot noDot)]
    simp
  rw [extensionOf, behind, List.reverse_reverse]
  cases stem with
  | nil => simp
  | cons first more =>
      have longer : letters.length + 1 < (first :: more ++ '.' :: letters).length := by
        simp only [List.length_append, List.length_cons]
        omega
      rw [if_pos longer, if_neg (List.cons_ne_nil first more)]

theorem extensionOf_of_no_dot (noDot : '.' ∉ component) : extensionOf component = none := by
  rw [extensionOf, List.takeWhile_eq_self_iff.mpr (passes_of_no_dot noDot)]
  simp

theorem extensionOf_eq_some_iff :
    extensionOf component = some letters ↔
      ∃ stem, component = stem ++ '.' :: letters ∧ stem ≠ [] ∧ '.' ∉ letters := by
  constructor
  · intro found
    by_cases dot : '.' ∈ component
    · -- The last dot is the first one from behind.
      rcases List.eq_append_cons_of_mem (List.mem_reverse.mpr dot) with
        ⟨behind, before, backwards, noDot⟩
      have split : component = before.reverse ++ '.' :: behind.reverse := by
        rw [← List.reverse_reverse component, backwards]
        simp
      rw [split, extensionOf_append (by simpa using noDot)] at found
      split at found
      · cases found
      · next filled =>
        cases found
        exact ⟨before.reverse, split, filled, by simpa using noDot⟩
    · rw [extensionOf_of_no_dot dot] at found
      cases found
  · rintro ⟨stem, rfl, filled, noDot⟩
    rw [extensionOf_append noDot, if_neg filled]

/-- The last component that is not idle has idle ones behind it only. -/
theorem getLast?_filter_eq_some_iff {components : List (List Char)} :
    (components.filter fun component => !isIdle component).getLast? = some component ↔
      ∃ front idle, components = front ++ component :: idle ∧ ¬Idle component ∧
        ∀ component ∈ idle, Idle component := by
  rw [List.getLast?_filter, List.find?_eq_some_iff_append]
  simp only [Bool.not_eq_true', Bool.not_not, isIdle_eq_false_iff, isIdle_iff]
  constructor
  · rintro ⟨filled, idle, front, backwards, allIdle⟩
    refine ⟨front.reverse, idle.reverse, ?_, filled, ?_⟩
    · rw [← List.reverse_reverse components, backwards]
      simp
    · simpa using allIdle
  · rintro ⟨front, idle, rfl, filled, allIdle⟩
    exact ⟨filled, idle.reverse, front.reverse, by simp, by simpa using allIdle⟩

theorem not_idle_of_stem {stem : List Char} (stemmed : stem ≠ []) :
    ¬Idle (stem ++ '.' :: letters) := by
  rintro (empty | dot)
  · simp at empty
  · cases stem with
    | nil => exact stemmed rfl
    | cons first more => simp at dot

theorem hasExtension_iff : HasExtension name extension ↔ extension? name = some extension := by
  unfold HasExtension extension?
  constructor
  · rintro ⟨front, stem, letters, idle, split, allIdle, stemmed, noDot, noParent, rfl⟩
    have last := getLast?_filter_eq_some_iff.mpr
      ⟨front, idle, split, not_idle_of_stem stemmed, allIdle⟩
    rw [components, last]
    simp [noParent, extensionOf_append noDot, stemmed]
  · intro found
    split at found
    · next component last =>
      rcases getLast?_filter_eq_some_iff.mp last with ⟨front, idle, split, _, allIdle⟩
      split at found
      · cases found
      · next noParent =>
        rcases Option.map_eq_some_iff.mp found with ⟨letters, isExtension, rfl⟩
        rcases extensionOf_eq_some_iff.mp isExtension with ⟨stem, rfl, stemmed, noDot⟩
        exact ⟨front, stem, letters, idle, split, allIdle, stemmed, noDot, noParent, rfl⟩
    · cases found

theorem extended_iff {extension : Option String} :
    Extended name extension ↔ extension? name = extension := by
  constructor
  · intro extended
    cases extended with
    | extension has => exact hasExtension_iff.mp has
    | none hasNone =>
        rw [Option.eq_none_iff_forall_ne_some]
        exact fun extension found => hasNone extension (hasExtension_iff.mpr found)
  · rintro rfl
    cases found : extension? name with
    | some extension => exact .extension (hasExtension_iff.mpr found)
    | none =>
        refine .none fun extension has => ?_
        rw [hasExtension_iff, found] at has
        cases has

end Extension

end FileName

namespace Files

section Loads

variable (files : FileSystem) (home : Option String) (options : Option KeyValue.Options)
  (name : String)

/-- The reader of a text: the one of key-value text if options are given, else the one that the
extension names. -/
inductive Reads (options : Option KeyValue.Options) (place : String) :
    (String → Except Fault Dictionary) → Prop where
  | withOptions {chosen : KeyValue.Options} (given : options = some chosen) :
      Reads options place (KeyValue.load chosen)
  | json (notGiven : options = none) (extended : FileName.Extended place (some "json")) :
      Reads options place Json.load
  | properties (notGiven : options = none)
      (extended : FileName.Extended place (some "properties")) :
      Reads options place (KeyValue.load .properties)
  | ini (notGiven : options = none) (extended : FileName.Extended place (some "ini")) :
      Reads options place (KeyValue.load .ini)

/-- What loading a file comes to. The first thing that is missing decides: a place for the name, a
format, a text that can be read. -/
inductive Loads : Except Fault Dictionary → Prop where
  | homeless {fault : Fault} (nowhere : FileName.Places home name (.error fault)) :
      Loads (.error fault)
  | unsupported {place : String} {extension : Option String}
      (placed : FileName.Places home name (.ok place)) (notGiven : options = none)
      (extended : FileName.Extended place extension)
      (other : extension ∉ [some "json", some "properties", some "ini"]) :
      Loads (.error
        { kind := .file
            ("Unsupported configuration file extension '" ++ extension.getD "" ++ "'") place
          hint := some "Use a .json, .ini or .properties file"
          code := some 702 })
  | unreadable {place : String} {reader : String → Except Fault Dictionary}
      {problem : ReadProblem} (placed : FileName.Places home name (.ok place))
      (reads : Reads options place reader) (failed : files place = .error problem) :
      Loads (.error
        { kind := .file ("Failed to read file: " ++ problem.message) place
          hint := some "Check that the file exists and is readable"
          code := some 701 })
  | parsed {place text : String} {reader : String → Except Fault Dictionary}
      (placed : FileName.Places home name (.ok place)) (reads : Reads options place reader)
      (found : files place = .ok text) : Loads (reader text)

variable {files home options name} {result : Except Fault Dictionary}

theorem Reads.loader?_eq {place : String} {reader : String → Except Fault Dictionary}
    (reads : Reads none place reader) :
    loader? (FileName.extension? place) = some reader := by
  cases reads with
  | withOptions given => cases given
  | json _ extended | properties _ extended | ini _ extended =>
      rw [FileName.extended_iff.mp extended]
      rfl

theorem loader?_eq_none {extension : Option String}
    (other : extension ∉ [some "json", some "properties", some "ini"]) :
    loader? extension = none := by
  simp only [List.mem_cons, List.not_mem_nil, or_false, not_or] at other
  unfold loader?
  split <;> simp_all

theorem exists_reads_or_unsupported (options : Option KeyValue.Options) (place : String) :
    (∃ reader, Reads options place reader) ∨
      options = none ∧ ∃ extension, FileName.Extended place extension ∧
        extension ∉ [some "json", some "properties", some "ini"] := by
  cases options with
  | some chosen => exact .inl ⟨_, .withOptions rfl⟩
  | none =>
      have extended := FileName.extended_iff.mpr (rfl : FileName.extension? place = _)
      by_cases other : FileName.extension? place ∉ [some "json", some "properties", some "ini"]
      · exact .inr ⟨rfl, _, extended, other⟩
      · simp only [List.mem_cons, List.not_mem_nil, or_false, not_not] at other
        rcases other with isJson | isProperties | isIni
        · exact .inl ⟨_, .json rfl (isJson ▸ extended)⟩
        · exact .inl ⟨_, .properties rfl (isProperties ▸ extended)⟩
        · exact .inl ⟨_, .ini rfl (isIni ▸ extended)⟩

theorem exists_loads (files : FileSystem) (home : Option String)
    (options : Option KeyValue.Options) (name : String) :
    ∃ result, Loads files home options name result := by
  rcases FileName.exists_places home name with ⟨fault | place, places⟩
  · exact ⟨_, .homeless places⟩
  · rcases exists_reads_or_unsupported options place with
      ⟨reader, reads⟩ | ⟨notGiven, extension, extended, other⟩
    · cases found : files place with
      | error problem => exact ⟨_, .unreadable places reads found⟩
      | ok text => exact ⟨_, .parsed places reads found⟩
    · exact ⟨_, .unsupported places notGiven extended other⟩

theorem Loads.load_eq (loads : Loads files home none name result) :
    load files home name = result := by
  unfold load
  cases loads with
  | homeless nowhere =>
      rw [nowhere.expandHome_eq]
      rfl
  | unsupported placed _ extended other =>
      rw [placed.expandHome_eq]
      simp only [bind, Except.bind, FileName.extended_iff.mp extended, loader?_eq_none other]
      rfl
  | unreadable placed reads failed =>
      rw [placed.expandHome_eq]
      simp only [bind, Except.bind, reads.loader?_eq, Files.read, failed]
      rfl
  | parsed placed reads found =>
      rw [placed.expandHome_eq]
      simp only [bind, Except.bind, reads.loader?_eq, Files.read, found]
      rfl

theorem Loads.loadWith_eq {chosen : KeyValue.Options}
    (loads : Loads files home (some chosen) name result) :
    loadWith chosen files home name = result := by
  unfold loadWith
  cases loads with
  | homeless nowhere =>
      rw [nowhere.expandHome_eq]
      rfl
  | unsupported _ notGiven => cases notGiven
  | unreadable placed reads failed =>
      rw [placed.expandHome_eq]
      simp only [bind, Except.bind, Files.read, failed]
      rfl
  | parsed placed reads found =>
      rw [placed.expandHome_eq]
      cases reads with
      | withOptions given =>
          cases given
          simp only [bind, Except.bind, Files.read, found]
          rfl
      | json notGiven | properties notGiven | ini notGiven => cases notGiven

end Loads

end Files

end ConfigTree
