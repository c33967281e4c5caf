import ConfigTree.Proofs.Dictionary.Locate
import ConfigTree.Proofs.Dictionary.Write

/-!
# The last relevant write decides

A run applies writes one after the other and passes over those that are refused.
Without substitution, a lookup along keys after a run depends on one write only:
the last successful one whose keys lie on one line with the keys of the lookup.
What an earlier write has put there is replaced or gone, and a write beside the
keys is not seen.
-/

namespace ConfigTree

/-- A write of a text, or of an explicit null. -/
structure Write where
  path : String
  leaf : Option String

/-- The names among the segments of a path. -/
def Path.names (path : String) : List String :=
  match Path.tokenize path with
  | .error _ => []
  | .ok segments => segments.filterMap fun
    | .key name => some name
    | .index _ => none

theorem Path.names_of_tokenize {path : String} {keys : List String}
    (read : Path.tokenize path = .ok (keys.map Segment.key)) : Path.names path = keys := by
  simp only [names, read, List.filterMap_map, Function.comp_def, List.filterMap_some]

/-- One of two lists of keys leads to the other. -/
def Comparable (first second : List String) : Prop :=
  first <+: second ∨ second <+: first

instance (first second : List String) : Decidable (Comparable first second) :=
  inferInstanceAs (Decidable (_ ∨ _))

namespace Dictionary

/-- Applies a write. -/
def apply (dictionary : Dictionary) (write : Write) : Except Fault Dictionary :=
  match write.leaf with
  | some text => dictionary.set write.path text
  | none => dictionary.setNull write.path

/-- Applies writes in order, each to what the ones before have left, whether they were done or
refused. -/
def run (dictionary : Dictionary) : List Write → Dictionary
  | [] => dictionary
  | write :: rest => (dictionary.writeInto write.path write.leaf).2.run rest

/-- The keys and leaves of the writes that succeed in a run, in order. -/
def written (dictionary : Dictionary) : List Write → List (List String × Option String)
  | [] => []
  | write :: rest =>
    match dictionary.apply write with
    | .error _ => dictionary.written rest
    | .ok after => (Path.names write.path, write.leaf) :: after.written rest

/-- Neither the environment nor the tree is asked for references. -/
def Plain (dictionary : Dictionary) : Prop :=
  dictionary.substitutesEnvironment = false ∧ dictionary.substitutesConfiguration = false

theorem Plain.of_samePolicy {first second : Dictionary} (plain : second.Plain)
    (same : first.SamePolicy second) : first.Plain :=
  ⟨same.1.trans plain.1, same.2.1.trans plain.2⟩

theorem apply_eq_write (dictionary : Dictionary) (write : Write) :
    dictionary.apply write = dictionary.write write.path write.leaf := by
  rcases write with ⟨path, _ | text⟩ <;> rfl

/-- A run passes over a write that is refused. -/
theorem run_cons (dictionary : Dictionary) (write : Write) (rest : List Write) :
    dictionary.run (write :: rest) =
      match dictionary.apply write with
      | .error _ => dictionary.run rest
      | .ok after => after.run rest := by
  rw [run, writeInto_eq, apply_eq_write]
  cases dictionary.write write.path write.leaf <;> rfl

theorem of_apply_eq_ok {dictionary after : Dictionary} {write : Write}
    (applied : dictionary.apply write = .ok after) :
    ∃ keys : List String, Path.names write.path = keys ∧
      Node.Writable keys dictionary.root ∧
      after.root = some (Node.put (.value write.leaf) keys dictionary.root) ∧
      after.SamePolicy dictionary := by
  rw [apply_eq_write] at applied
  rcases of_write_eq_ok applied with ⟨keys, read, writable, root, same⟩
  exact ⟨keys, Path.names_of_tokenize read, writable, root, same⟩

theorem run_samePolicy (dictionary : Dictionary) (writes : List Write) :
    (dictionary.run writes).SamePolicy dictionary := by
  induction writes generalizing dictionary with
  | nil => exact ⟨rfl, rfl, rfl⟩
  | cons write rest ih =>
      rw [run_cons]
      cases applied : dictionary.apply write with
      | error fault => exact ih dictionary
      | ok after =>
          rcases of_apply_eq_ok applied with ⟨keys, _, _, _, same⟩
          exact (ih after).trans same

theorem Plain.get_eq_rawText {dictionary : Dictionary} (plain : dictionary.Plain)
    (path : String) : dictionary.get path = dictionary.rawText path := by
  have getWith : ∀ follow, dictionary.getWith follow path = dictionary.rawText path := by
    intro follow
    unfold Dictionary.getWith
    rw [plain.1, plain.2]
    cases dictionary.rawText path with
    | error fault => rfl
    | ok text => cases text <;> rfl
  exact getWith _

/-- What a lookup along `keys` comes to where a leaf has been put at comparable keys. -/
def seen (keys : List String) (last : List String × Option String) :
    Except Fault.Family (Option String) :=
  if last.1 = keys then .ok last.2
  else if last.1 <+: keys then .error .notFound
  else .error .typeMismatch

theorem look_put_of_comparable (leaf : Option String) {keys written : List String}
    (node : Option Node) (comparable : Comparable written keys) :
    Node.look keys (some (Node.put (.value leaf) written node)) = seen keys (written, leaf) := by
  by_cases same : written = keys
  · subst written
    simp [seen, Node.look_put_self]
  · rcases comparable with ⟨rest, rfl⟩ | ⟨rest, rfl⟩
    · cases rest with
      | nil => simp at same
      | cons key more => simp [seen, Node.look_put_of_prefix]
    · cases rest with
      | nil => simp at same
      | cons key more =>
          have longer : ¬keys ++ key :: more <+: keys := by
            intro shorter
            have tooLong := shorter.length_le
            simp only [List.length_append, List.length_cons] at tooLong
            omega
          simp [seen, longer, Node.look_put_of_extension]

/-- After a run, the tree answers as the last comparable write says, or as it did before. -/
theorem look_run (keys : List String) (dictionary : Dictionary) (writes : List Write) :
    Node.look keys (dictionary.run writes).root =
      match ((dictionary.written writes).filter fun last =>
        Comparable last.1 keys).getLast? with
      | some last => seen keys last
      | none => Node.look keys dictionary.root := by
  induction writes generalizing dictionary with
  | nil => rfl
  | cons write rest ih =>
      simp only [run_cons, written]
      cases applied : dictionary.apply write with
      | error fault => exact ih dictionary
      | ok after =>
          rcases of_apply_eq_ok applied with ⟨written, names, writable, root, _⟩
          simp only [names]
          rw [ih after, root]
          by_cases comparable : Comparable written keys
          · rw [List.filter_cons_of_pos (by simpa using comparable), List.getLast?_cons,
              look_put_of_comparable write.leaf dictionary.root comparable]
            cases ((after.written rest).filter fun last =>
              Comparable last.1 keys).getLast? <;> rfl
          · rw [List.filter_cons_of_neg (by simpa using comparable)]
            rw [Node.look_put_of_diverging write.leaf writable
              (fun below => comparable (.inl below)) (fun above => comparable (.inr above))]

/-- The last successful write with comparable keys decides what a lookup along keys comes to: its
leaf at the keys themselves, nothing below it and an object above it. Without such a write the
lookup comes to what it did before the run. -/
theorem get_run_of_last_comparable {dictionary : Dictionary} (plain : dictionary.Plain)
    (writes : List Write) {path : String} {keys : List String}
    (read : Path.tokenize path = .ok (keys.map Segment.key)) :
    (((dictionary.written writes).filter fun last => Comparable last.1 keys).getLast? = none →
      outcome ((dictionary.run writes).get path) = outcome (dictionary.get path)) ∧
    ∀ (written : List String) (leaf : Option String),
      ((dictionary.written writes).filter fun last => Comparable last.1 keys).getLast? =
        some (written, leaf) →
      (written = keys → (dictionary.run writes).get path = .ok leaf) ∧
      (written <+: keys → written ≠ keys →
        outcome ((dictionary.run writes).get path) = .error .notFound) ∧
      (keys <+: written → written ≠ keys →
        outcome ((dictionary.run writes).get path) = .error .typeMismatch) := by
  have plainAfter : (dictionary.run writes).Plain :=
    plain.of_samePolicy (dictionary.run_samePolicy writes)
  have after : outcome ((dictionary.run writes).get path) =
      Node.look keys (dictionary.run writes).root := by
    rw [plainAfter.get_eq_rawText, outcome_rawText_of_keys _ read]
  rw [look_run] at after
  refine ⟨?_, ?_⟩
  · intro none_comparable
    rw [after, none_comparable, plain.get_eq_rawText, outcome_rawText_of_keys _ read]
  · intro written leaf isLast
    rw [isLast] at after
    refine ⟨?_, ?_, ?_⟩
    · intro same
      rw [← outcome_eq_ok_iff, after]
      simp [seen, same]
    · intro below different
      rw [after]
      simp [seen, different, below]
    · intro above different
      have notBelow : ¬written <+: keys := by
        intro below
        exact different (below.eq_of_length (below.length_le.antisymm above.length_le))
      rw [after]
      simp [seen, different, notBelow]

/-- A text written above a path takes away what was written at the path before. -/
theorem get_run_of_last_comparable_above :
    Dictionary.empty.Plain ∧ Path.tokenize "a. b" = .ok (["a", "b"].map Segment.key) ∧
      outcome ((Dictionary.empty.run
        [⟨"a.b", some "1"⟩, ⟨"a", none⟩, ⟨"a[0]", some "2"⟩, ⟨"c", some "3"⟩]).get "a. b") =
          .error .notFound := by
  have read : Path.tokenize "a. b" = .ok (["a", "b"].map Segment.key) := by decide
  have isLast : ((Dictionary.empty.written
      [⟨"a.b", some "1"⟩, ⟨"a", none⟩, ⟨"a[0]", some "2"⟩, ⟨"c", some "3"⟩]).filter fun last =>
        Comparable last.1 ["a", "b"]).getLast? = some (["a"], none) := by decide
  exact ⟨⟨rfl, rfl⟩, read, ((get_run_of_last_comparable ⟨rfl, rfl⟩ _ read).2 _ _ isLast).2.1
    (by decide) (by decide)⟩

end Dictionary

end ConfigTree
