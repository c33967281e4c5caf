import ConfigTree.Conversion
import ConfigTree.Proofs.Dictionary.Part

/-!
# Paths of the same segments

Paths that read as the same segments can stand for each other in every call: a path is
read once, and after that only a fault shows how it was spelled. `Fault.requoted` is
the fault of the same call at another path.

A reference inside a text speaks of a path of its own, so a fault behind one is the
same fault at both paths. `Echoes` compares answers with this in mind. One thing is
decided on the spelling: the fault of a container at the root that is asked for its
text has another number where the path is written as the root.
-/

namespace ConfigTree

namespace Fault

/-- The same fault of a call at another path. -/
def requoted (path : String) (fault : Fault) : Fault :=
  match fault.kind with
  | .pathSyntax _ segment message => { fault with kind := .pathSyntax path segment message }
  | .notFound _ resolved => { fault with kind := .notFound path resolved }
  | .outOfBounds _ resolved index length =>
    { fault with kind := .outOfBounds path resolved index length }
  | .typeMismatch _ message => { fault with kind := .typeMismatch path message }
  | .unsupported _ message => { fault with kind := .unsupported path message }
  | .conversion _ value target => { fault with kind := .conversion path value target }
  | _ => fault

@[simp]
theorem isNotFound_requoted (path : String) (fault : Fault) :
    (fault.requoted path).isNotFound = fault.isNotFound := by
  rcases fault with ⟨kind, hint, code⟩
  cases kind <;> rfl

@[simp]
theorem sort_requoted (path : String) (fault : Fault) :
    (fault.requoted path).sort = fault.sort := by
  rcases fault with ⟨kind, hint, code⟩
  cases kind <;> rfl

end Fault

@[simp]
theorem Obstacle.requoted_fault (path path' : String) (taken : List Segment)
    (obstacle : Obstacle) :
    (obstacle.fault path taken).requoted path' = obstacle.fault path' taken := by
  cases obstacle <;> rfl

@[simp]
theorem WriteRefusal.requoted_fault (path path' : String) (refusal : WriteRefusal) :
    (refusal.fault path).requoted path' = refusal.fault path' := by
  cases refusal <;> rfl

/-- Two answers of a call at two paths are the same, or faults that quote these paths and nothing
else is different in them. -/
inductive Echoes {α : Type} (path path' : String) : Except Fault α → Except Fault α → Prop where
  | same (answer : Except Fault α) : Echoes path path' answer answer
  | quoted {fault : Fault} (quotes : fault.requoted path = fault) :
      Echoes path path' (.error fault) (.error (fault.requoted path'))

section Echoes

variable {α β : Type} {path path' : String} {first second : Except Fault α}

theorem Echoes.bind {next next' : α → Except Fault β} (echoes : Echoes path path' first second)
    (agree : ∀ value, Echoes path path' (next value) (next' value)) :
    Echoes path path' (first >>= next) (second >>= next') := by
  cases echoes with
  | same =>
      cases first with
      | error fault => exact .same _
      | ok value => exact agree value
  | quoted quotes => exact .quoted quotes

theorem echoes_of_requoted (own : first = first.mapError (·.requoted path))
    (other : second = first.mapError (·.requoted path')) : Echoes path path' first second := by
  subst other
  cases first with
  | error fault => exact .quoted (Except.error.inj own).symm
  | ok value => exact .same _

/-- A default is taken in place of both faults or of neither of them. -/
theorem echoes_default {fault : Fault} (quotes : fault.requoted path = fault) (default : α) :
    Echoes path path' (if fault.isNotFound then .ok default else .error fault)
      (if (fault.requoted path').isNotFound then .ok default
        else .error (fault.requoted path')) := by
  rw [Fault.isNotFound_requoted]
  split
  · exact .same _
  · exact .quoted quotes

/-- The path of a lookup is all that a conversion learns of it. -/
theorem echoes_withPath (path path' : String) (result : Except Fault α) :
    Echoes path path' (result.mapError (·.withPath path))
      (result.mapError (·.withPath path')) := by
  cases result with
  | ok value => exact .same _
  | error fault =>
      rcases fault with ⟨kind, hint, code⟩
      cases kind with
      | conversion own value target =>
          have quotes : Fault.requoted path ⟨.conversion path value target, hint, code⟩ =
            ⟨.conversion path value target, hint, code⟩ := rfl
          exact .quoted quotes
      | _ => exact .same _

end Echoes

namespace Dictionary

/-- What calls at a path come to, none of them asking for a text, is what they come to at another
path, but for the path that a fault quotes. -/
structure Interchangeable (dictionary : Dictionary) (path path' : String) : Prop where
  has : dictionary.has path' = dictionary.has path
  keys : dictionary.keys path' = (dictionary.keys path).mapError (·.requoted path')
  size : dictionary.size path' = (dictionary.size path).mapError (·.requoted path')
  sub : dictionary.sub path' = (dictionary.sub path).mapError (·.requoted path')
  set : ∀ value,
    dictionary.set path' value = (dictionary.set path value).mapError (·.requoted path')
  setNull : dictionary.setNull path' = (dictionary.setNull path).mapError (·.requoted path')

/-- All ways to ask for the text at a path come to what they come to at another path. -/
structure SameTexts (dictionary : Dictionary) (path path' : String) : Prop where
  get : Echoes path path' (dictionary.get path) (dictionary.get path')
  getOr : ∀ default,
    Echoes path path' (dictionary.getOr path default) (dictionary.getOr path' default)
  getAs : ∀ {α : Type} (conversion : Conversion α),
    Echoes path path' (dictionary.getAs conversion path) (dictionary.getAs conversion path')
  getAsOr : ∀ {α : Type} (conversion : Conversion α) (default : α),
    Echoes path path' (dictionary.getAsOr conversion path default)
      (dictionary.getAsOr conversion path' default)

/-- All ways to ask for the text at a path end with the same fault. -/
structure RefusesText (dictionary : Dictionary) (path : String) (fault : Fault) : Prop where
  get : dictionary.get path = .error fault
  getOr : ∀ default, dictionary.getOr path default = .error fault
  getAs : ∀ {α : Type} (conversion : Conversion α),
    dictionary.getAs conversion path = .error fault
  getAsOr : ∀ {α : Type} (conversion : Conversion α) (default : α),
    dictionary.getAsOr conversion path default = .error fault

/-- Calls at a path are calls at the root. -/
structure LeadsToRoot (dictionary : Dictionary) (path : String) : Prop where
  locate : dictionary.locate path = dictionary.root.elim (.error (emptyFault path)) .ok
  has : dictionary.has path = dictionary.root.isSome
  sub : dictionary.sub path =
    if dictionary.root.isSome then .ok dictionary else .error (emptyFault path)
  write : ∀ leaf, ∃ after, dictionary.write path leaf = .ok after ∧
    after.root = some (.value leaf) ∧ after.SamePolicy dictionary

section SameSegments

variable {dictionary : Dictionary} {path path' : String} {segments : List Segment}
  (read : Path.tokenize path = .ok segments) (read' : Path.tokenize path' = .ok segments)

include read read'

theorem locate_requoted :
    dictionary.locate path' = (dictionary.locate path).mapError (·.requoted path') := by
  cases isRoot : dictionary.root with
  | none =>
      rw [locate, locate, isRoot]
      rfl
  | some root =>
      rw [locate_eq_answer_of_root isRoot, locate_eq_answer_of_root isRoot,
        Path.tokenize_eq_ok_iff.mp read, Path.tokenize_eq_ok_iff.mp read']
      cases root.steps [] segments with
      | error stopped => exact congrArg Except.error (Obstacle.requoted_fault ..).symm
      | ok node => rfl

theorem write_requoted (leaf : Option String) :
    dictionary.write path' leaf =
      (dictionary.write path leaf).mapError (·.requoted path') := by
  rw [write_eq, write_eq, read, read']
  dsimp only [Except.bind]
  cases writable : Node.writableKeys [] dictionary.root segments with
  | error refusal => exact congrArg Except.error (WriteRefusal.requoted_fault ..).symm
  | ok keys => rfl

theorem interchangeable : dictionary.Interchangeable path path' := by
  have found := @locate_requoted dictionary path path' segments read read'
  refine ⟨?_, ?_, ?_, ?_, ?_, ?_⟩
  · rw [has, has, found]
    cases dictionary.locate path <;> rfl
  · rw [keys, keys, found]
    cases dictionary.locate path with
    | error fault => rfl
    | ok node => cases node <;> rfl
  · rw [size, size, found]
    cases dictionary.locate path with
    | error fault => rfl
    | ok node => cases node <;> rfl
  · cases located : dictionary.locate path with
    | error fault =>
        rw [located] at found
        rw [sub_eq_error located, sub_eq_error found]
        rfl
    | ok node =>
        rw [located] at found
        rcases exists_sub_eq_ok located with ⟨part, isPart, root, policy⟩
        rcases exists_sub_eq_ok found with ⟨part', isPart', root', policy'⟩
        rw [isPart, isPart', eq_of_root_eq (root'.trans root.symm) (policy'.trans policy.symm)]
        rfl
  · intro value
    exact write_requoted read read' (some value)
  · exact write_requoted read read' none

end SameSegments

section Root

variable {dictionary : Dictionary} {path : String}

theorem not_isRoot_of_tokenize {segments : List Segment} (read : Path.tokenize path = .ok segments)
    (filled : segments ≠ []) : Path.isRoot path = false := by
  rw [← Bool.not_eq_true]
  intro written
  exact filled ((Path.segments_eq_nil_iff read).mpr (Path.pieces_eq_nil_of_isRoot written))

/-- A path of dots and blanks leads to the root. -/
theorem locate_of_nil (read : Path.tokenize path = .ok []) :
    dictionary.locate path = dictionary.root.elim (.error (emptyFault path)) .ok := by
  cases isRoot : dictionary.root with
  | none =>
      rw [locate, isRoot]
      rfl
  | some root =>
      rw [locate_eq_answer_of_root isRoot, Path.tokenize_eq_ok_iff.mp read]
      rfl

theorem leadsToRoot (read : Path.tokenize path = .ok []) : dictionary.LeadsToRoot path := by
  have found := @locate_of_nil dictionary path read
  refine ⟨found, ?_, ?_, ?_⟩
  · rw [has, found]
    cases dictionary.root <;> rfl
  · cases isRoot : dictionary.root with
    | none =>
        rw [isRoot] at found
        exact sub_eq_error found
    | some root =>
        rw [isRoot] at found
        rcases exists_sub_eq_ok found with ⟨part, isPart, partRoot, policy⟩
        rw [isPart, eq_of_root_eq (partRoot.trans isRoot.symm) policy]
        rfl
  · intro leaf
    exact @exists_written dictionary path [] leaf read trivial

theorem refusesText_of_rawText {fault : Fault} (failed : dictionary.rawText path = .error fault)
    (present : fault.isNotFound = false) : dictionary.RefusesText path fault := by
  have got : dictionary.get path = .error fault := by
    rw [get, nestingLimit, getWithin, getWith, failed]
    rfl
  refine ⟨got, ?_, ?_, ?_⟩
  · intro default
    simp [getOr, got, present]
  · intro α conversion
    rw [getAs, got]
    rfl
  · intro α conversion default
    simp [getAsOr, got, present]

/-- Only the spelling decides which fault a container at the root gives. -/
theorem refusesText_of_container {root : Node} (read : Path.tokenize path = .ok [])
    (isRoot : dictionary.root = some root) (container : root.isValue = false) :
    dictionary.RefusesText path
      (if Path.isRoot path then
        { kind := .typeMismatch path s!"Root is not a value but an {root.kindName}"
          hint := some "Query a path below the root instead"
          code := some 308 }
      else
        { kind := .typeMismatch path s!"Value expected but {root.kindName} found"
          hint := some "Use get_config to work with objects and arrays"
          code := some 307 }) := by
  have found : dictionary.locate path = .ok root := by
    rw [locate_of_nil read, isRoot]
    rfl
  apply refusesText_of_rawText
  · rw [rawText, found]
    cases root with
    | value text => cases container
    | object fields => dsimp only [bind, Except.bind]; split <;> rfl
    | array items => dsimp only [bind, Except.bind]; split <;> rfl
  · split <;> rfl

end Root

section SameTexts

variable {dictionary : Dictionary} {path path' : String} {segments : List Segment}
  (read : Path.tokenize path = .ok segments) (read' : Path.tokenize path' = .ok segments)
  (ordinary : segments = [] → ∀ root, dictionary.root = some root → root.isValue = true)

include read read' ordinary

theorem rawText_requoted :
    dictionary.rawText path' = (dictionary.rawText path).mapError (·.requoted path') := by
  have container : ∀ node, dictionary.locate path = .ok node → node.isValue = false →
      Path.isRoot path = false ∧ Path.isRoot path' = false := by
    intro node located isContainer
    have filled : segments ≠ [] := by
      rintro rfl
      rw [locate_of_nil read] at located
      cases isRoot : dictionary.root with
      | none => simp [isRoot] at located
      | some root =>
          rw [isRoot] at located
          cases located
          rw [ordinary rfl _ isRoot] at isContainer
          cases isContainer
    exact ⟨not_isRoot_of_tokenize read filled, not_isRoot_of_tokenize read' filled⟩
  rw [rawText, rawText, locate_requoted read read']
  cases located : dictionary.locate path with
  | error fault => rfl
  | ok node =>
      cases node with
      | value text => rfl
      | object fields =>
          rcases container _ located rfl with ⟨below, below'⟩
          simp only [mapError_ok, bind, Except.bind, below, below']
          rfl
      | array items =>
          rcases container _ located rfl with ⟨below, below'⟩
          simp only [mapError_ok, bind, Except.bind, below, below']
          rfl

theorem sameTexts : dictionary.SameTexts path path' := by
  have raw : Echoes path path' (dictionary.rawText path) (dictionary.rawText path') :=
    echoes_of_requoted (rawText_requoted read read ordinary)
      (rawText_requoted read read' ordinary)
  have got : Echoes path path' (dictionary.get path) (dictionary.get path') := by
    apply raw.bind
    intro text
    exact .same _
  refine ⟨got, ?_, ?_, ?_⟩
  · intro default
    rw [getOr, getOr]
    generalize dictionary.get path = first, dictionary.get path' = second at got ⊢
    cases got with
    | same => exact .same _
    | quoted quotes => exact echoes_default quotes (some default)
  · intro α conversion
    apply got.bind
    intro scalar
    exact echoes_withPath path path' (conversion scalar)
  · intro α conversion default
    rw [getAsOr, getAsOr]
    generalize dictionary.get path = first, dictionary.get path' = second at got ⊢
    cases got with
    | same =>
        cases first with
        | ok scalar => exact echoes_withPath path path' (conversion scalar)
        | error fault => exact .same _
    | quoted quotes => exact echoes_default quotes default

end SameTexts

/-- Paths that read as the same segments can stand for each other: calls at them come to the same,
or to faults that differ in the path they quote. The one exception is a container at the root that
is asked for its text. Paths of dots and blanks, whether written as the root or not, all lead to the
root. -/
theorem interchangeable_of_same_segments {path path' : String} {segments : List Segment}
    (read : Path.tokenize path = .ok segments) (read' : Path.tokenize path' = .ok segments)
    (dictionary : Dictionary) :
    dictionary.Interchangeable path path' ∧
    ((segments = [] → ∀ root, dictionary.root = some root → root.isValue = true) →
      dictionary.SameTexts path path') ∧
    (∀ fault : Fault, (fault.requoted path').sort = fault.sort) ∧
    ∀ path : String,
      (Path.tokenize path = .ok [] ↔ ∀ c ∈ path.toList, c = '.' ∨ Text.isBlank c = true) ∧
      (Path.tokenize path = .ok [] →
        dictionary.LeadsToRoot path ∧
        (Path.isRoot path = true ↔ path.toList.count '.' ≤ 1) ∧
        ∀ root, dictionary.root = some root → root.isValue = false →
          dictionary.RefusesText path
            (if Path.isRoot path then
              { kind := .typeMismatch path s!"Root is not a value but an {root.kindName}"
                hint := some "Query a path below the root instead"
                code := some 308 }
            else
              { kind := .typeMismatch path s!"Value expected but {root.kindName} found"
                hint := some "Use get_config to work with objects and arrays"
                code := some 307 })) := by
  refine ⟨interchangeable read read', ?_, ?_, ?_⟩
  · exact sameTexts read read'
  · exact Fault.sort_requoted path'
  · intro path
    refine ⟨Path.tokenize_eq_ok_nil_iff.trans Path.pieces_eq_nil_iff, ?_⟩
    intro atRoot
    refine ⟨leadsToRoot atRoot, Path.isRoot_iff_count (Path.tokenize_eq_ok_nil_iff.mp atRoot), ?_⟩
    intro root isRoot container
    exact refusesText_of_container atRoot isRoot container

/-- Blanks, further dots and a leading zero do not change what is found, and two dots are the root
without being written as the root. -/
theorem interchangeable_of_same_segments_zero :
    ∃ dictionary : Dictionary,
      dictionary.root = some (.object [("a", .array [.ofText "1", .ofText "2"])]) ∧
      Path.tokenize "a[01]" = .ok [.key "a", .index 1] ∧
      Path.tokenize " a. .[1]" = .ok [.key "a", .index 1] ∧
      dictionary.get "a[01]" = .ok (some "2") ∧ dictionary.get " a. .[1]" = .ok (some "2") ∧
      Path.isRoot ".." = false ∧ dictionary.sub ".." = .ok dictionary := by
  refine ⟨ofNode (.object [("a", .array [.ofText "1", .ofText "2"])]), rfl, ?_⟩
  generalize isDictionary : ofNode (.object [("a", .array [.ofText "1", .ofText "2"])]) =
    dictionary
  have read : Path.tokenize "a[01]" = .ok [.key "a", .index 1] := by decide
  have read' : Path.tokenize " a. .[1]" = .ok [.key "a", .index 1] := by decide
  have found : dictionary.get "a[01]" = .ok (some "2") := by
    rw [← isDictionary]
    decide +kernel
  have filled : dictionary.root.isSome = true := by rw [← isDictionary]; rfl
  rcases interchangeable_of_same_segments read read' dictionary with ⟨_, texts, _, atRoot⟩
  have echoes := (texts nofun).get
  have whole := ((atRoot "..").2 (by decide)).1.sub
  rw [found] at echoes
  rw [filled] at whole
  refine ⟨read, read', found, ?_, by decide, whole⟩
  generalize dictionary.get " a. .[1]" = answer at echoes ⊢
  cases echoes
  rfl

end Dictionary

end ConfigTree
