import ConfigTree.Dictionary.Basic
import ConfigTree.Proofs.Node.Look

/-!
# Writes that succeed

A write succeeds when its path can be read, names keys only, and meets no array
before its last key. It then puts the leaf into the tree and leaves the policy
alone. A write that is refused leaves the dictionary as it was.
-/

namespace ConfigTree

theorem Path.family_of_tokenize_eq_error {path : String} {fault : Fault}
    (failed : tokenize path = .error fault) : fault.family = .pathSyntax := by
  unfold tokenize at failed
  split at failed
  · cases failed
  · next bad _ =>
    cases failed
    cases bad <;> rfl

namespace Dictionary

/-- Two dictionaries read values under the same policy. -/
def SamePolicy (first second : Dictionary) : Prop :=
  first.substitutesEnvironment = second.substitutesEnvironment ∧
    first.substitutesConfiguration = second.substitutesConfiguration ∧
    first.environment = second.environment

namespace SamePolicy

variable {first second third : Dictionary}

theorem refl (dictionary : Dictionary) : dictionary.SamePolicy dictionary :=
  ⟨rfl, rfl, rfl⟩

theorem symm (same : first.SamePolicy second) : second.SamePolicy first :=
  ⟨same.1.symm, same.2.1.symm, same.2.2.symm⟩

theorem trans (left : first.SamePolicy second) (right : second.SamePolicy third) :
    first.SamePolicy third :=
  ⟨left.1.trans right.1, left.2.1.trans right.2.1, left.2.2.trans right.2.2⟩

end SamePolicy

theorem eq_of_root_eq {first second : Dictionary} (roots : first.root = second.root)
    (policy : first.SamePolicy second) : first = second := by
  rcases first with ⟨root, environmentAsked, treeAsked, environment, _⟩
  rcases second with ⟨root', environmentAsked', treeAsked', environment', _⟩
  rcases policy with ⟨rfl, rfl, rfl⟩
  cases roots
  rfl

/-- A write reads its path, checks its keys and puts its leaf. -/
theorem write_eq (dictionary : Dictionary) (path : String) (leaf : Option String) :
    dictionary.write path leaf =
      (Path.tokenize path).bind fun segments =>
        ((Node.writableKeys [] dictionary.root segments).mapError (·.fault path)).map fun keys =>
          dictionary.put keys leaf := by
  rw [write, writeInto]
  cases Path.tokenize path with
  | error fault => rfl
  | ok segments =>
      cases writable : Node.writableKeys [] dictionary.root segments <;>
        simp [writable, Except.bind, Except.map]

/-- A write that is refused leaves the dictionary as it was. -/
theorem writeInto_eq (dictionary : Dictionary) (path : String) (leaf : Option String) :
    dictionary.writeInto path leaf =
      match dictionary.write path leaf with
      | .ok after => (.ok (), after)
      | .error fault => (.error fault, dictionary) := by
  rw [write, writeInto]
  cases Path.tokenize path with
  | error fault => rfl
  | ok segments =>
      cases writable : Node.writableKeys [] dictionary.root segments with
      | error refusal => simp [writable, Except.map]
      | ok keys => simp [writable, Except.map]

/-- What a successful write has done. -/
theorem of_write_eq_ok {dictionary after : Dictionary} {path : String} {leaf : Option String}
    (written : dictionary.write path leaf = .ok after) :
    ∃ keys : List String, Path.tokenize path = .ok (keys.map Segment.key) ∧
      Node.Writable keys dictionary.root ∧
      after.root = some (Node.put (.value leaf) keys dictionary.root) ∧
      after.SamePolicy dictionary := by
  rw [write_eq] at written
  cases read : Path.tokenize path with
  | error fault => simp [read, Except.bind] at written
  | ok segments =>
      cases writable : Node.writableKeys [] dictionary.root segments with
      | error refusal => simp [read, writable, Except.bind, Except.map] at written
      | ok keys =>
          rcases Node.writableKeys_eq_ok_iff.mp writable with ⟨rfl, canWrite⟩
          simp only [read, writable, mapError_ok, Except.bind, Except.map,
            Except.ok.injEq] at written
          subst written
          exact ⟨keys, rfl, canWrite, rfl, rfl, rfl, rfl⟩

/-- A write to a path of keys that meets no array puts its leaf at these keys. -/
theorem exists_written {dictionary : Dictionary} {path : String} {keys : List String}
    (leaf : Option String) (read : Path.tokenize path = .ok (keys.map Segment.key))
    (writable : Node.Writable keys dictionary.root) :
    ∃ after, dictionary.write path leaf = .ok after ∧
      after.root = some (Node.put (.value leaf) keys dictionary.root) ∧
      after.SamePolicy dictionary := by
  have allowed := (@Node.writableKeys_eq_ok_iff [] _ dictionary.root keys).mpr ⟨rfl, writable⟩
  simp only [write_eq, read, allowed, mapError_ok, Except.bind, Except.map]
  exact ⟨_, rfl, rfl, rfl, rfl, rfl⟩

/-- A write to a path of keys that meets no array succeeds. -/
theorem exists_write_eq_ok {dictionary : Dictionary} {path : String} {keys : List String}
    (leaf : Option String) (read : Path.tokenize path = .ok (keys.map Segment.key))
    (writable : Node.Writable keys dictionary.root) :
    ∃ after, dictionary.write path leaf = .ok after := by
  rcases exists_written leaf read writable with ⟨after, written, _⟩
  exact ⟨after, written⟩

/-- What a write at a path of keys needs, and what it makes. -/
theorem exists_write_eq_ok_iff {dictionary : Dictionary} {path : String}
    {leaf : Option String} :
    (∃ after, dictionary.write path leaf = .ok after) ↔
      ∃ keys : List String, Path.tokenize path = .ok (keys.map Segment.key) ∧
        Node.Writable keys dictionary.root := by
  constructor
  · rintro ⟨after, written⟩
    rcases of_write_eq_ok written with ⟨keys, read, writable, _⟩
    exact ⟨keys, read, writable⟩
  · rintro ⟨keys, read, writable⟩
    exact exists_write_eq_ok leaf read writable

/-- A write fails because its path cannot be read, or because it is refused. -/
theorem write_eq_error_iff {dictionary : Dictionary} {path : String} {leaf : Option String}
    {fault : Fault} :
    dictionary.write path leaf = .error fault ↔
      Path.tokenize path = .error fault ∨
        ∃ segments refusal, Path.tokenize path = .ok segments ∧
          Node.writableKeys [] dictionary.root segments = .error refusal ∧
          fault = refusal.fault path := by
  rw [write_eq]
  cases Path.tokenize path with
  | error unread => simp [Except.bind]
  | ok segments =>
      cases writable : Node.writableKeys [] dictionary.root segments with
      | error refusal => simp [writable, Except.bind, Except.map, eq_comm]
      | ok keys => simp [writable, Except.bind, Except.map]

/-- A write fails for the syntax of its path exactly if the path cannot be read. -/
theorem exists_write_pathSyntax_iff {dictionary : Dictionary} {path : String}
    {leaf : Option String} :
    (∃ fault, dictionary.write path leaf = .error fault ∧ fault.family = .pathSyntax) ↔
      ∃ fault, Path.tokenize path = .error fault := by
  constructor
  · rintro ⟨fault, failed, isSyntax⟩
    rcases write_eq_error_iff.mp failed with unread | ⟨_, refusal, _, _, rfl⟩
    · exact ⟨fault, unread⟩
    · cases refusal <;> cases isSyntax
  · rintro ⟨fault, unread⟩
    exact ⟨fault, write_eq_error_iff.mpr (.inl unread), Path.family_of_tokenize_eq_error unread⟩

end Dictionary

end ConfigTree
