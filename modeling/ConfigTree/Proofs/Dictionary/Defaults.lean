import ConfigTree.Conversion
import ConfigTree.Proofs.Dictionary.Nesting

/-!
# What a default stands in for

A default stands in for a path that leads nowhere. `Node.Missing` says this of
the tree alone, and no text that is found in the tree changes it: the faults of
references in a text have other kinds, whatever the lookups behind the
references come to. So the tree alone decides where a default is taken.
-/

namespace ConfigTree

namespace Node

/-- The way down the segments ends at a name that an object does not have, or that is asked of a
value. -/
inductive Missing : Node → List Segment → Prop where
  | ofObject {fields : List (String × Node)} {name : String} {rest : List Segment}
      (absent : Fields.get? fields name = none) : Missing (.object fields) (.key name :: rest)
  | ofValue {text : Option String} {name : String} {rest : List Segment} :
      Missing (.value text) (.key name :: rest)
  | inField {fields : List (String × Node)} {name : String} {child : Node} {rest : List Segment}
      (found : Fields.get? fields name = some child) (missing : Missing child rest) :
      Missing (.object fields) (.key name :: rest)
  | inElement {items : List Node} {position : Nat} {child : Node} {rest : List Segment}
      (found : items[position]? = some child) (missing : Missing child rest) :
      Missing (.array items) (.index position :: rest)

theorem missing_cons_iff {node : Node} {segment : Segment} {rest : List Segment} :
    node.Missing (segment :: rest) ↔
      (∃ obstacle, node.step segment = .error obstacle ∧ obstacle.family = .notFound) ∨
        ∃ child, node.step segment = .ok child ∧ child.Missing rest := by
  constructor
  · intro missing
    cases missing with
    | @ofObject fields name rest absent =>
        exact .inl ⟨.missingKey name, by simp [step, absent], rfl⟩
    | @ofValue text name rest => exact .inl ⟨.keyOfValue name, rfl, rfl⟩
    | inField found missing => exact .inr ⟨_, by simp [step, found], missing⟩
    | inElement found missing => exact .inr ⟨_, by simp [step, found], missing⟩
  · intro stops
    cases node with
    | value text =>
        cases segment with
        | key name => exact .ofValue
        | index position => simp [step, Obstacle.family] at stops
    | object fields =>
        cases segment with
        | key name =>
            cases found : Fields.get? fields name with
            | none => exact .ofObject found
            | some child =>
                simp only [step, found, reduceCtorEq, false_and, exists_false, Except.ok.injEq,
                  exists_eq_left', false_or] at stops
                exact .inField found stops
        | index position => simp [step, Obstacle.family] at stops
    | array items =>
        cases segment with
        | key name => simp [step, Obstacle.family] at stops
        | index position =>
            cases found : items[position]? with
            | none => simp [step, found, Obstacle.family] at stops
            | some child =>
                simp only [step, found, reduceCtorEq, false_and, exists_false, Except.ok.injEq,
                  exists_eq_left', false_or] at stops
                exact .inElement found stops

/-- Stepping down stops with nothing found exactly where the tree has nothing. -/
theorem missing_iff_steps {node : Node} {segments : List Segment} (taken : List Segment) :
    node.Missing segments ↔
      ∃ place obstacle, node.steps taken segments = .error (place, obstacle) ∧
        obstacle.family = .notFound := by
  induction segments generalizing node taken with
  | nil =>
      constructor
      · intro missing
        cases missing
      · rintro ⟨_, _, stopped, _⟩
        cases stopped
  | cons segment rest ih =>
      rw [missing_cons_iff, steps]
      cases stepped : node.step segment with
      | error obstacle =>
          constructor
          · rintro (⟨_, same, isMissing⟩ | ⟨_, impossible, _⟩)
            · cases same
              exact ⟨taken, obstacle, rfl, isMissing⟩
            · cases impossible
          · rintro ⟨_, _, stopped, isMissing⟩
            cases stopped
            exact .inl ⟨obstacle, rfl, isMissing⟩
      | ok child =>
          rw [← ih]
          constructor
          · rintro (⟨_, impossible, _⟩ | ⟨_, same, missing⟩)
            · cases impossible
            · cases same
              exact missing
          · intro missing
            exact .inr ⟨child, rfl, missing⟩

end Node

namespace Dictionary

variable {dictionary : Dictionary} {path : String} {fault : Fault}
  {follow : String → Except Fault (Option String)}

/-- There is no tree, or the tree has nothing where the path leads. What stands behind a malformed
piece of the path does not count. -/
def Absent (dictionary : Dictionary) (path : String) : Prop :=
  ∀ root, dictionary.root = some root →
    root.Missing (Path.readPieces (Path.pieces path.toList)).1

theorem exists_locate_notFound_iff_absent :
    (∃ fault, dictionary.locate path = .error fault ∧ fault.isNotFound = true) ↔
      dictionary.Absent path := by
  cases isRoot : dictionary.root with
  | none =>
      constructor
      · intro _ root isTree
        cases isRoot.symm.trans isTree
      · intro _
        exact ⟨emptyFault path, by simp [locate, isRoot], rfl⟩
  | some root =>
      have absent_iff : dictionary.Absent path ↔
          root.Missing (Path.readPieces (Path.pieces path.toList)).1 := by
        simp [Absent, isRoot]
      rw [absent_iff, Node.missing_iff_steps [], locate_eq_answer_of_root isRoot]
      cases root.steps [] (Path.readPieces (Path.pieces path.toList)).1 with
      | error stopped =>
          rcases stopped with ⟨place, obstacle⟩
          simp [Node.answer, Fault.isNotFound_iff_family]
      | ok node =>
          cases (Path.readPieces (Path.pieces path.toList)).2 with
          | none => simp [Node.answer]
          | some bad => cases bad <;> simp [Node.answer, BadBracket.fault, Fault.isNotFound]

theorem rawText_eq_error_iff_of_notFound (missing : fault.isNotFound = true) :
    dictionary.rawText path = .error fault ↔ dictionary.locate path = .error fault := by
  unfold rawText
  cases dictionary.locate path with
  | error own => simp [bind, Except.bind]
  | ok node =>
      cases node with
      | value text => simp [bind, Except.bind, pure, Except.pure]
      | object fields =>
          simp only [bind, Except.bind, reduceCtorEq, iff_false]
          split <;> rintro ⟨⟩ <;> cases missing
      | array items =>
          simp only [bind, Except.bind, reduceCtorEq, iff_false]
          split <;> rintro ⟨⟩ <;> cases missing

/-- References in a text that is found do not make a lookup find nothing. -/
theorem getWith_eq_error_iff_of_notFound (missing : fault.isNotFound = true) :
    dictionary.getWith follow path = .error fault ↔ dictionary.locate path = .error fault := by
  rw [← rawText_eq_error_iff_of_notFound missing]
  constructor
  · intro failed
    rcases of_getWith_eq_error failed with own | ⟨present, _⟩
    · exact own
    · simp [missing] at present
  · intro own
    simp [getWith, own, bind, Except.bind]

theorem getWithin_eq_error_iff_of_notFound (levels : Nat) (missing : fault.isNotFound = true) :
    dictionary.getWithin levels path = .error fault ↔ dictionary.locate path = .error fault := by
  cases levels <;> exact getWith_eq_error_iff_of_notFound missing

theorem isNotFound_of_substituteWith {text : String}
    (failed : dictionary.substituteWith follow text = .error fault) :
    fault.isNotFound = false := by
  rcases of_substituteWith_eq_error failed with ⟨reference, _, unresolved⟩ | ⟨name, rfl⟩
  · rcases of_resolve_eq_error unresolved with rfl | ⟨_, _, present⟩
    · rfl
    · exact present
  · rfl

theorem exists_get_notFound_iff_absent :
    (∃ fault, dictionary.get path = .error fault ∧ fault.isNotFound = true) ↔
      dictionary.Absent path := by
  rw [← exists_locate_notFound_iff_absent]
  constructor
  · rintro ⟨fault, failed, missing⟩
    exact ⟨fault, (getWithin_eq_error_iff_of_notFound _ missing).mp failed, missing⟩
  · rintro ⟨fault, failed, missing⟩
    exact ⟨fault, (getWithin_eq_error_iff_of_notFound _ missing).mpr failed, missing⟩

theorem isNotFound_of_get_of_not_absent (present : ¬dictionary.Absent path)
    (failed : dictionary.get path = .error fault) : fault.isNotFound = false := by
  rw [← Bool.not_eq_true]
  intro missing
  exact present (exists_get_notFound_iff_absent.mp ⟨fault, failed, missing⟩)

/-- A lookup finds nothing exactly where the tree has nothing at the path itself, on every level of
references and whatever the references in a text come to. So a default is taken exactly there, and
everywhere else a lookup with a default is the lookup without it. -/
theorem default_iff_absent (dictionary : Dictionary) (path : String) :
    ((∃ fault, dictionary.get path = .error fault ∧ fault.isNotFound = true) ↔
      dictionary.Absent path) ∧
    (∀ fault levels, fault.isNotFound = true →
      (dictionary.getWithin levels path = .error fault ↔
        dictionary.locate path = .error fault)) ∧
    (∀ follow text fault, dictionary.substituteWith follow text = .error fault →
      fault.isNotFound = false) ∧
    (∀ default, (dictionary.Absent path → dictionary.getOr path default = .ok (some default)) ∧
      (¬dictionary.Absent path → dictionary.getOr path default = dictionary.get path)) ∧
    ∀ (α : Type) (conversion : Conversion α) (default : α),
      (dictionary.Absent path → dictionary.getAsOr conversion path default = .ok default) ∧
      (¬dictionary.Absent path →
        dictionary.getAsOr conversion path default = dictionary.getAs conversion path) := by
  refine ⟨exists_get_notFound_iff_absent, ?_, ?_, ?_, ?_⟩
  · intro fault levels missing
    exact getWithin_eq_error_iff_of_notFound levels missing
  · intro follow text fault failed
    exact isNotFound_of_substituteWith failed
  · intro default
    refine ⟨?_, ?_⟩
    · intro absent
      rcases exists_get_notFound_iff_absent.mpr absent with ⟨fault, failed, missing⟩
      simp [getOr, failed, missing]
    · intro present
      unfold getOr
      cases found : dictionary.get path with
      | ok text => rfl
      | error fault => simp [isNotFound_of_get_of_not_absent present found]
  · intro α conversion default
    refine ⟨?_, ?_⟩
    · intro absent
      rcases exists_get_notFound_iff_absent.mpr absent with ⟨fault, failed, missing⟩
      simp [getAsOr, failed, missing]
    · intro present
      unfold getAsOr getAs
      cases found : dictionary.get path with
      | ok scalar => rfl
      | error fault =>
          simp only [isNotFound_of_get_of_not_absent present found]
          rfl

end Dictionary

end ConfigTree
