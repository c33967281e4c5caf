import ConfigTree.Proofs.Dictionary.FieldOrder
import ConfigTree.Proofs.Dictionary.LastWrite
import ConfigTree.Proofs.Node.Apart
import ConfigTree.Proofs.Node.Leads
import ConfigTree.Proofs.Path.Names

/-!
# Two writes

A write at some keys makes whatever was written further down undone: going down its
keys it finds the objects that the longer write has made, each with its field where it
would have put it itself, and its leaf takes the place of the rest. Writes whose keys
part ways do not meet below the object in which they part. There both set a field, and
their order shows in one case only: when both fields are new, they stand in the order
in which they came.
-/

namespace ConfigTree

namespace Fields

variable {α : Type} {name other : String}

@[simp]
theorem insert_insert_self (name : String) (value old : α) (fields : List (String × α)) :
    insert name value (insert name old fields) = insert name value fields := by
  induction fields with
  | nil => simp [insert]
  | cons field rest ih =>
      by_cases same : field.1 = name <;> simp [insert, same, ih]

theorem insert_inj {value value' : α} {fields : List (String × α)} :
    insert name value fields = insert name value' fields ↔ value = value' := by
  constructor
  · intro inserted
    have found := congrArg (get? · name) inserted
    simpa using found
  · rintro rfl
    rfl

/-- Two fields can be set in either order, unless both are new and so come to the end. -/
theorem insert_comm_iff (different : name ≠ other) (value value' : α)
    (fields : List (String × α)) :
    insert name value (insert other value' fields) =
        insert other value' (insert name value fields) ↔
      name ∈ keys fields ∨ other ∈ keys fields := by
  induction fields with
  | nil => simp [insert, keys, different, different.symm]
  | cons field rest ih =>
      rcases field with ⟨key, old⟩
      by_cases isName : key = name
      · subst key
        simp [insert, keys, different]
      · by_cases isOther : key = other
        · subst key
          simp [insert, keys, isName]
        · simp only [insert, isName, isOther, if_false, List.cons.injEq, true_and, ih, keys,
            List.map_cons, List.mem_cons, Ne.symm isName, Ne.symm isOther, false_or]

theorem get?_insert_comm (different : name ≠ other) (value value' : α)
    (fields : List (String × α)) (wanted : String) :
    get? (insert name value (insert other value' fields)) wanted =
      get? (insert other value' (insert name value fields)) wanted := by
  by_cases isName : name = wanted
  · subst wanted
    rw [get?_insert_self, get?_insert_of_ne _ _ different.symm, get?_insert_self]
  · rw [get?_insert_of_ne _ _ isName]
    by_cases isOther : other = wanted
    · subst wanted
      rw [get?_insert_self, get?_insert_self]
    · rw [get?_insert_of_ne _ _ isOther, get?_insert_of_ne _ _ isOther,
        get?_insert_of_ne _ _ isName]

end Fields

theorem PartWays.symm {first second : List String} (apart : PartWays first second) :
    PartWays second first := by
  rcases apart with ⟨position, name, other, isName, isOther, different⟩
  exact ⟨position, other, name, isOther, isName, different.symm⟩

namespace Node

variable {keys keys' : List String} {root : Option Node}

theorem keysDistinct_of_get?_fieldsOf (distinct : ∀ node, root = some node → node.KeysDistinct)
    {name : String} {child : Node} (found : Fields.get? (fieldsOf root) name = some child) :
    child.KeysDistinct := by
  unfold fieldsOf at found
  split at found
  · cases distinct _ rfl with
    | object _ below => exact below _ (Fields.mem_of_get? found)
  · cases found

/-- A write takes back what has been written at its keys or further down. -/
theorem put_put_of_prefix (leaf leaf' : Node) (isPrefix : keys <+: keys') (root : Option Node) :
    put leaf keys (some (put leaf' keys' root)) = put leaf keys root := by
  induction keys generalizing keys' root with
  | nil => rfl
  | cons key rest ih =>
      rcases isPrefix with ⟨behind, rfl⟩
      have below := ih (List.prefix_append rest behind) (Fields.get? (fieldsOf root) key)
      rw [List.cons_append, put, put, put, fieldsOf, Fields.get?_insert_self,
        Fields.insert_insert_self, below]

/-- A write leaves no array on its way. -/
theorem writable_put_of_prefix (leaf : Node) (isPrefix : keys <+: keys') (root : Option Node) :
    Writable keys (some (put leaf keys' root)) := by
  induction keys generalizing keys' root with
  | nil => exact trivial
  | cons key rest ih =>
      rcases isPrefix with ⟨behind, rfl⟩
      rw [List.cons_append, put]
      refine ⟨by simp, ?_⟩
      rw [fieldsOf, Fields.get?_insert_self]
      exact ih (List.prefix_append rest behind) _

/-- A write puts no array in the way of keys that part from its own. -/
theorem writable_put_of_partWays (leaf : Node) (writable : Writable keys root)
    (apart : PartWays keys keys') : Writable keys (some (put leaf keys' root)) := by
  induction keys generalizing keys' root with
  | nil => exact trivial
  | cons key rest ih =>
      rcases apart.exists_cons with ⟨_, _, key', rest', ⟨⟩, rfl⟩
      rcases writable with ⟨_, writableBelow⟩
      rw [partWays_cons_iff] at apart
      rw [put]
      refine ⟨by simp, ?_⟩
      rw [fieldsOf]
      by_cases same : key' = key
      · subst key'
        rw [Fields.get?_insert_self]
        exact ih writableBelow (apart.resolve_left fun different => different rfl)
      · rw [Fields.get?_insert_of_ne _ _ same]
        exact writableBelow

/-- Writes at keys that part ways make the same tree in either order, up to the order of fields. -/
theorem put_put_alike (leaf leaf' : Option String) (apart : PartWays keys keys')
    (distinct : ∀ node, root = some node → node.KeysDistinct) :
    (put (.value leaf) keys (some (put (.value leaf') keys' root))).Alike
      (put (.value leaf') keys' (some (put (.value leaf) keys root))) := by
  induction keys generalizing keys' root with
  | nil =>
      rcases apart.exists_cons with ⟨_, _, _, _, impossible, _⟩
      cases impossible
  | cons key rest ih =>
      rcases apart.exists_cons with ⟨_, _, key', rest', ⟨⟩, rfl⟩
      rw [partWays_cons_iff] at apart
      have distinctBelow := fun name child =>
        @keysDistinct_of_get?_fieldsOf root distinct name child
      have unchanged : ∀ name, Option.Rel Alike (Fields.get? (fieldsOf root) name)
          (Fields.get? (fieldsOf root) name) := by
        intro name
        cases found : Fields.get? (fieldsOf root) name with
        | none => exact .none
        | some child => exact .some (Alike.refl child (distinctBelow name child found))
      rw [put, put, put, put, fieldsOf, fieldsOf]
      apply Alike.object_of_get?
      by_cases same : key = key'
      · -- Both go down into the same field and part further below.
        subst key'
        have apartBelow := apart.resolve_left fun different => different rfl
        simp only [Fields.get?_insert_self, Fields.insert_insert_self]
        exact get?_insert_alike unchanged (ih apartBelow (distinctBelow key)) key
      · -- Both set a field of this object, in either order.
        intro name
        rw [Fields.get?_insert_of_ne _ _ (Ne.symm same), Fields.get?_insert_of_ne _ _ same,
          Fields.get?_insert_comm same]
        apply get?_insert_alike _ (put_alike leaf' (unchanged key') rest')
        exact get?_insert_alike unchanged (put_alike leaf (unchanged key) rest) key

/-- The order of two writes shows in the tree exactly if both make a new field where they part. -/
theorem put_put_comm_iff {name other : String} (different : name ≠ other) (leaf leaf' : Node)
    (above rest rest' : List String) (root : Option Node) :
    put leaf (above ++ name :: rest) (some (put leaf' (above ++ other :: rest') root)) =
        put leaf' (above ++ other :: rest') (some (put leaf (above ++ name :: rest) root)) ↔
      ∃ old, LeadsFrom root (above.map Segment.key) (.object old) ∧
        (name ∈ Fields.keys old ∨ other ∈ Fields.keys old) := by
  induction above generalizing root with
  | nil =>
      have fields : (∃ old, root = some (.object old) ∧
            (name ∈ Fields.keys old ∨ other ∈ Fields.keys old)) ↔
          name ∈ Fields.keys (fieldsOf root) ∨ other ∈ Fields.keys (fieldsOf root) := by
        unfold fieldsOf
        split
        · simp
        · next noObject =>
          constructor
          · rintro ⟨old, rfl, _⟩
            exact absurd rfl (noObject old)
          · simp [Fields.keys]
      simp only [List.nil_append, List.map_nil, leadsFrom_nil_iff]
      rw [fields, put, put, put, put, fieldsOf, fieldsOf,
        Fields.get?_insert_of_ne _ _ different.symm, Fields.get?_insert_of_ne _ _ different,
        Node.object.injEq, Fields.insert_comm_iff different]
  | cons key above ih =>
      simp only [List.cons_append, List.map_cons, leadsFrom_key_iff, put, fieldsOf,
        Fields.get?_insert_self, Fields.insert_insert_self, Node.object.injEq, Fields.insert_inj]
      exact ih _

end Node

namespace Dictionary

variable {dictionary firstAfter secondAfter : Dictionary} {first second : Write}

/-- Two writes that a dictionary allows, one after the other. If the keys of the first begin those
of the second, the first takes back the second and leaves what it leaves alone. If their keys part
ways, both orders succeed, and the two trees differ in the order of fields at most; they differ
exactly if both fields of the object in which the keys part are new. -/
theorem apply_apply (firstApplied : dictionary.apply first = .ok firstAfter)
    (secondApplied : dictionary.apply second = .ok secondAfter) :
    ∃ keys keys' : List String, Path.tokenize first.path = .ok (keys.map Segment.key) ∧
      Path.tokenize second.path = .ok (keys'.map Segment.key) ∧
      (keys <+: keys' → secondAfter.apply first = .ok firstAfter) ∧
      (PartWays keys keys' →
        ∃ both both', secondAfter.apply first = .ok both ∧ firstAfter.apply second = .ok both' ∧
          both.Alike both' ∧
          ∀ above name rest other rest', keys = above ++ name :: rest →
            keys' = above ++ other :: rest' → name ≠ other →
            (both = both' ↔
              ∃ old, Node.LeadsFrom dictionary.root (above.map Segment.key) (.object old) ∧
                (name ∈ Fields.keys old ∨ other ∈ Fields.keys old))) := by
  simp only [apply_eq_write] at firstApplied secondApplied ⊢
  rcases of_write_eq_ok firstApplied with ⟨keys, read, writable, firstRoot, firstPolicy⟩
  rcases of_write_eq_ok secondApplied with ⟨keys', read', writable', secondRoot, secondPolicy⟩
  refine ⟨keys, keys', read, read', ?_, ?_⟩
  · intro isPrefix
    have writableAfter : Node.Writable keys secondAfter.root := by
      rw [secondRoot]
      exact Node.writable_put_of_prefix _ isPrefix _
    rcases exists_written first.leaf read writableAfter with ⟨after, written, root, policy⟩
    have same : after = firstAfter := by
      apply eq_of_root_eq
      · rw [root, secondRoot, Node.put_put_of_prefix _ _ isPrefix, firstRoot]
      · exact policy.trans (secondPolicy.trans firstPolicy.symm)
    rw [written, same]
  · intro apart
    have writableAfter : Node.Writable keys secondAfter.root := by
      rw [secondRoot]
      exact Node.writable_put_of_partWays _ writable apart
    have writableAfter' : Node.Writable keys' firstAfter.root := by
      rw [firstRoot]
      exact Node.writable_put_of_partWays _ writable' apart.symm
    rcases exists_written first.leaf read writableAfter with ⟨both, written, root, policy⟩
    rcases exists_written second.leaf read' writableAfter' with ⟨both', written', root', policy'⟩
    rw [secondRoot] at root
    rw [firstRoot] at root'
    have samePolicy : both.SamePolicy both' :=
      (policy.trans secondPolicy).trans (policy'.trans firstPolicy).symm
    refine ⟨both, both', written, written', ?_, ?_⟩
    · rw [alike_iff, root, root', Option.rel_some_some]
      exact ⟨samePolicy, Node.put_put_alike _ _ apart dictionary.keysDistinct⟩
    · rintro above name rest other rest' rfl rfl different
      rw [← Node.put_put_comm_iff different (.value first.leaf) (.value second.leaf)]
      constructor
      · rintro rfl
        exact Option.some.inj (root.symm.trans root')
      · intro roots
        exact eq_of_root_eq (root.trans ((congrArg some roots).trans root'.symm)) samePolicy

/-- Two writes turn a value into an object, each with a new field, so their order shows there; the
array beside it stays, and a null written over the object takes both back. -/
theorem apply_apply_value :
    ∃ dictionary after after' both both' above : Dictionary,
      dictionary.root = some (.object [("m", .object [("v", .ofText "1"),
        ("l", .array [.null])])]) ∧
      dictionary.apply ⟨"m.v.x", some "2"⟩ = .ok after ∧
      dictionary.apply ⟨"m. v.y", none⟩ = .ok after' ∧
      after'.apply ⟨"m.v.x", some "2"⟩ = .ok both ∧ after.apply ⟨"m. v.y", none⟩ = .ok both' ∧
      both.Alike both' ∧ both ≠ both' ∧
      dictionary.apply ⟨"m.v", none⟩ = .ok above ∧ after.apply ⟨"m.v", none⟩ = .ok above := by
  generalize isBefore : ofNode (.object [("m", .object [("v", .ofText "1"),
    ("l", .array [.null])])]) = dictionary
  have isRoot : dictionary.root = some (.object [("m", .object [("v", .ofText "1"),
      ("l", .array [.null])])]) := by
    rw [← isBefore]
    rfl
  have writable : ∀ keys ∈ [["m", "v", "x"], ["m", "v", "y"], ["m", "v"]],
      Node.Writable keys dictionary.root := by
    rw [isRoot]
    simp [Node.Writable, Node.fieldsOf, Fields.get?, Node.ofText]
  have readX : Path.tokenize "m.v.x" = .ok (["m", "v", "x"].map Segment.key) := by decide
  have readY : Path.tokenize "m. v.y" = .ok (["m", "v", "y"].map Segment.key) := by decide
  have readAbove : Path.tokenize "m.v" = .ok (["m", "v"].map Segment.key) := by decide
  rcases exists_write_eq_ok (some "2") readX (writable _ (by simp)) with ⟨after, written⟩
  rcases exists_write_eq_ok none readY (writable _ (by simp)) with ⟨after', written'⟩
  rcases exists_write_eq_ok none readAbove (writable _ (by simp)) with ⟨above, writtenAbove⟩
  have applied : dictionary.apply ⟨"m.v.x", some "2"⟩ = .ok after := written
  have applied' : dictionary.apply ⟨"m. v.y", none⟩ = .ok after' := written'
  have appliedAbove : dictionary.apply ⟨"m.v", none⟩ = .ok above := writtenAbove
  rcases apply_apply applied applied' with ⟨keys, keys', read, read', _, partWays⟩
  cases Path.keys_unique read readX
  cases Path.keys_unique read' readY
  rcases partWays ⟨2, "x", "y", rfl, rfl, by decide⟩ with
    ⟨both, both', wrote, wrote', alike, order⟩
  rcases apply_apply appliedAbove applied with ⟨keys, keys', read, read', takesBack, _⟩
  cases Path.keys_unique read readAbove
  cases Path.keys_unique read' readX
  refine ⟨dictionary, after, after', both, both', above, isRoot, applied, applied', wrote,
    wrote', alike, ?_, appliedAbove, takesBack (by decide)⟩
  -- Before the writes, the keys part in a value, which has no fields.
  rw [ne_eq, order ["m", "v"] "x" [] "y" [] rfl rfl (by decide), isRoot]
  rintro ⟨old, leads, _⟩
  simp [Node.leadsFrom_key_iff, Node.fieldsOf, Fields.get?, Node.ofText] at leads

end Dictionary

end ConfigTree
