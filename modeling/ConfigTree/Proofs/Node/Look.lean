import ConfigTree.Node.Write
import ConfigTree.Proofs.Fault.Family
import ConfigTree.Proofs.Node.Steps

/-!
# Looking along keys, before and after a write

`Node.look` says what a plain lookup along keys comes to, by recursion on the
keys. The four lemmas on `Node.put` cover all ways in which the keys of a write
can lie to the keys of a lookup: equal, shorter, longer, or neither a prefix of
the other. Only in the last case does the tree before the write matter, and
there the write must have been possible: an array in its way would not have
given way to an object. `Node.Writable` says this by recursion on the keys, in
step with `Node.put`.
-/

namespace ConfigTree

namespace Node

/-- What a value answers when it is asked for its text. -/
def scalar : Node → Except Fault.Family (Option String)
  | .value text => .ok text
  | _ => .error .typeMismatch

/-- What a plain lookup along keys comes to. -/
def look : List String → Option Node → Except Fault.Family (Option String)
  | _, none => .error .notFound
  | [], some node => node.scalar
  | _ :: _, some (.value _) => .error .notFound
  | _ :: _, some (.array _) => .error .typeMismatch
  | key :: rest, some (.object fields) => look rest (Fields.get? fields key)

@[simp]
theorem look_none (keys : List String) : look keys none = .error .notFound := by
  cases keys <;> rfl

/-- A node that is no array answers as if it were an object. -/
theorem look_cons_of_not_array {node : Option Node} (noArray : ∀ items, node ≠ some (.array items))
    (key : String) (rest : List String) :
    look (key :: rest) node = look rest (Fields.get? (fieldsOf node) key) := by
  cases node with
  | none => simp [fieldsOf, Fields.get?]
  | some node =>
      cases node with
      | value text => simp [look, fieldsOf, Fields.get?]
      | object fields => simp [look, fieldsOf]
      | array items => exact absurd rfl (noArray items)

@[simp]
theorem look_cons_object (fields : List (String × Node)) (key : String) (rest : List String) :
    look (key :: rest) (some (.object fields)) = look rest (Fields.get? fields key) := rfl

/-- No array stands on the way down the keys, the place they lead to left out. -/
def Writable : List String → Option Node → Prop
  | [], _ => True
  | key :: rest, node =>
      (∀ items, node ≠ some (.array items)) ∧ Writable rest (Fields.get? (fieldsOf node) key)

theorem writable_none (keys : List String) : Writable keys none := by
  induction keys with
  | nil => exact trivial
  | cons key rest ih => exact ⟨by simp, ih⟩

theorem writableKeys_key {taken rest : List Segment} {node : Option Node} {name : String}
    (noArray : ∀ items, node ≠ some (.array items)) :
    writableKeys taken node (.key name :: rest) =
      (writableKeys (taken ++ [.key name]) (Fields.get? (fieldsOf node) name) rest).map
        (name :: ·) := by
  rw [writableKeys]
  · cases writableKeys (taken ++ [.key name]) (Fields.get? (fieldsOf node) name) rest <;> rfl
  · exact noArray

theorem writableKeys_eq_ok_iff {taken segments : List Segment} {node : Option Node}
    {keys : List String} :
    writableKeys taken node segments = .ok keys ↔
      segments = keys.map Segment.key ∧ Writable keys node := by
  induction segments generalizing taken node keys with
  | nil =>
      simp only [writableKeys, Except.ok.injEq]
      constructor
      · rintro rfl
        simp [Writable]
      · rintro ⟨noSegments, _⟩
        simpa using noSegments.symm
  | cons segment rest ih =>
      cases segment with
      | index position => cases keys <;> simp [writableKeys]
      | key name =>
          by_cases isArray : ∃ items, node = some (.array items)
          · rcases isArray with ⟨items, rfl⟩
            cases keys <;> simp [writableKeys, Writable]
          · have noArray : ∀ items, node ≠ some (.array items) :=
              fun items same => isArray ⟨items, same⟩
            rw [writableKeys_key noArray]
            cases keys with
            | nil =>
                cases
                  writableKeys (taken ++ [.key name]) (Fields.get? (fieldsOf node) name) rest <;>
                  simp [Except.map]
            | cons key more =>
                have below := @ih (taken ++ [.key name]) (Fields.get? (fieldsOf node) name) more
                cases deeper : writableKeys (taken ++ [.key name])
                    (Fields.get? (fieldsOf node) name) rest with
                | error refusal =>
                    simp only [deeper, reduceCtorEq, false_iff, not_and] at below
                    simp only [Except.map, reduceCtorEq, List.map_cons, List.cons.injEq,
                      Segment.key.injEq, Writable, false_iff, not_and]
                    rintro ⟨rfl, restKeys⟩ _
                    exact below restKeys
                | ok found =>
                    simp only [deeper, Except.ok.injEq] at below
                    simp only [Except.map, Except.ok.injEq, List.cons.injEq, List.map_cons,
                      Segment.key.injEq, Writable, below]
                    constructor
                    · rintro ⟨rfl, restKeys, writable⟩
                      exact ⟨⟨rfl, restKeys⟩, noArray, writable⟩
                    · rintro ⟨⟨rfl, restKeys⟩, _, writable⟩
                      exact ⟨rfl, restKeys, writable⟩

theorem look_put_self (leaf : Option String) (keys : List String) (node : Option Node) :
    look keys (some (put (.value leaf) keys node)) = .ok leaf := by
  induction keys generalizing node with
  | nil => rfl
  | cons key rest ih => simp [put, ih]

/-- Nothing is below a leaf. -/
theorem look_put_of_prefix (leaf : Option String) (written rest : List String) (key : String)
    (node : Option Node) :
    look (written ++ key :: rest) (some (put (.value leaf) written node)) =
      .error .notFound := by
  induction written generalizing node with
  | nil => rfl
  | cons first more ih => simp [put, ih]

/-- Above a leaf there are objects. -/
theorem look_put_of_extension (leaf : Option String) (keys rest : List String) (key : String)
    (node : Option Node) :
    look keys (some (put (.value leaf) (keys ++ key :: rest) node)) = .error .typeMismatch := by
  induction keys generalizing node with
  | nil => rfl
  | cons first more ih => simp [put, ih]

/-- A write beside the keys changes nothing for them. -/
theorem look_put_of_diverging (leaf : Option String) {keys written : List String}
    {node : Option Node} (writable : Writable written node) (notBelow : ¬written <+: keys)
    (notAbove : ¬keys <+: written) :
    look keys (some (put (.value leaf) written node)) = look keys node := by
  induction written generalizing keys node with
  | nil => exact absurd List.nil_prefix notBelow
  | cons first more ih =>
      cases keys with
      | nil => exact absurd List.nil_prefix notAbove
      | cons key rest =>
          rcases writable with ⟨noArray, writableBelow⟩
          rw [look_cons_of_not_array noArray]
          simp only [put, look_cons_object]
          by_cases same : first = key
          · subst first
            rw [Fields.get?_insert_self]
            apply ih writableBelow
            · intro below
              exact notBelow (List.cons_prefix_cons.mpr ⟨rfl, below⟩)
            · intro above
              exact notAbove (List.cons_prefix_cons.mpr ⟨rfl, above⟩)
          · rw [Fields.get?_insert_of_ne _ _ same]

end Node

namespace Obstacle

/-- The family of the fault of an obstacle. -/
def family : Obstacle → Fault.Family
  | .missingKey _ | .keyOfValue _ => .notFound
  | .beyondEnd _ _ => .outOfBounds
  | .keyOfArray _ | .indexOfOther _ _ => .typeMismatch

@[simp]
theorem family_fault (path : String) (taken : List Segment) (obstacle : Obstacle) :
    (obstacle.fault path taken).family = obstacle.family := by
  cases obstacle <;> rfl

end Obstacle

namespace Node

/-- Stepping along keys and asking for the text there is looking along them. -/
theorem outcome_answer_steps_keys (path : String) (taken : List Segment) (node : Node)
    (keys : List String) :
    (outcome (answer path none (node.steps taken (keys.map Segment.key)))).bind scalar =
      look keys (some node) := by
  induction keys generalizing node taken with
  | nil => rfl
  | cons key rest ih =>
      cases node with
      | value text => rfl
      | array items => rfl
      | object fields =>
          cases found : Fields.get? fields key with
          | none => simp [steps, step, found, answer, Obstacle.family, Except.bind]
          | some child => simpa [steps, step, found] using ih (taken ++ [.key key]) child

end Node

end ConfigTree
