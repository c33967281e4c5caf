import ConfigTree.Node.Write
import ConfigTree.Proofs.Node.Steps
import Mathlib.Data.List.Forall2
import Mathlib.Data.List.Perm.Subperm
import Mathlib.Data.Option.Basic

/-!
# Trees that differ in the order of fields

`Node.Alike` compares objects by what they have under each name. Stated so, it is an
equivalence, and steps and writes keep it, because they go by name as well: alike
trees are met by the same obstacles, and reached or written at alike places. Where
no name is repeated it is what `Node.same` decides, which goes through the fields of
one object and looks each of them up in the other.
-/

namespace ConfigTree

/-- Results agree if they are the same fault, or values that are related. -/
inductive Agree {ε α β : Type} (related : α → β → Prop) : Except ε α → Except ε β → Prop where
  | ok {value : α} {value' : β} (values : related value value') :
      Agree related (.ok value) (.ok value')
  | error (error : ε) : Agree related (.error error) (.error error)

theorem Agree.eq_error {ε α β : Type} {related : α → β → Prop} {first : Except ε α}
    {second : Except ε β} {error : ε} (agree : Agree related first second)
    (failed : first = .error error) : second = .error error := by
  subst failed
  cases agree
  rfl

theorem Agree.exists_ok {ε α β : Type} {related : α → β → Prop} {first : Except ε α}
    {second : Except ε β} {value : α} (agree : Agree related first second)
    (isOk : first = .ok value) : ∃ value', second = .ok value' ∧ related value value' := by
  subst isOk
  cases agree with
  | ok values => exact ⟨_, rfl, values⟩

theorem Agree.bind {ε α β γ δ : Type} {related : α → β → Prop} {related' : γ → δ → Prop}
    {first : Except ε α} {second : Except ε β} {next : α → Except ε γ} {next' : β → Except ε δ}
    (agree : Agree related first second)
    (step : ∀ value value', related value value' → Agree related' (next value) (next' value')) :
    Agree related' (first >>= next) (second >>= next') := by
  cases agree with
  | ok values => exact step _ _ values
  | error error => exact .error error

theorem Agree.eq {ε α : Type} {first second : Except ε α} (agree : Agree Eq first second) :
    first = second := by
  cases agree with
  | ok same => rw [same]
  | error error => rfl

namespace Node

/-- Two trees differ in the order of fields only. -/
inductive Alike : Node → Node → Prop where
  | value (text : Option String) : Alike (.value text) (.value text)
  | object {fields others : List (String × Node)}
      (names : ∀ name, name ∈ Fields.keys fields ↔ name ∈ Fields.keys others)
      (below : ∀ name child other, Fields.get? fields name = some child →
        Fields.get? others name = some other → Alike child other) :
      Alike (.object fields) (.object others)
  | array {items others : List Node} (length : items.length = others.length)
      (below : ∀ (position : Nat) (child other : Node), items[position]? = some child →
        others[position]? = some other → Alike child other) : Alike (.array items) (.array others)

namespace Alike

variable {first second third : Node}

theorem get? {fields others : List (String × Node)}
    (alike : (Node.object fields).Alike (.object others)) (name : String) :
    Option.Rel Alike (Fields.get? fields name) (Fields.get? others name) := by
  cases alike with
  | object names below =>
      have present := names name
      rw [Fields.mem_keys_iff, Fields.mem_keys_iff] at present
      cases found : Fields.get? fields name with
      | none =>
          cases found' : Fields.get? others name with
          | none => exact .none
          | some other => simp [found, found'] at present
      | some child =>
          cases found' : Fields.get? others name with
          | none => simp [found, found'] at present
          | some other => exact .some (below name child other found found')

theorem object_of_get? {fields others : List (String × Node)}
    (each : ∀ name, Option.Rel Alike (Fields.get? fields name) (Fields.get? others name)) :
    (Node.object fields).Alike (.object others) := by
  apply Alike.object
  · intro name
    have related := each name
    rw [Fields.mem_keys_iff, Fields.mem_keys_iff]
    generalize Fields.get? fields name = child, Fields.get? others name = other at related ⊢
    cases related <;> simp
  · intro name child other found found'
    have related := each name
    rw [found, found'] at related
    cases related with
    | some alike => exact alike

theorem refl (node : Node) (distinct : node.KeysDistinct) : node.Alike node := by
  induction distinct with
  | value text => exact .value text
  | object names below ih =>
      apply Alike.object
      · intro name
        rfl
      · intro name child other found found'
        cases found.symm.trans found'
        exact ih _ (Fields.mem_of_get? found)
  | array below ih =>
      apply Alike.array rfl
      intro position child other found found'
      cases found.symm.trans found'
      exact ih _ (List.mem_of_getElem? found)

theorem symm (alike : first.Alike second) : second.Alike first := by
  induction alike with
  | value text => exact .value text
  | object names below ih =>
      apply Alike.object
      · intro name
        exact (names name).symm
      · intro name child other found found'
        exact ih name other child found' found
  | array length below ih =>
      apply Alike.array length.symm
      intro position child other found found'
      exact ih position other child found' found

theorem trans (left : first.Alike second) (right : second.Alike third) : first.Alike third := by
  induction left generalizing third with
  | value text => exact right
  | object names below ih =>
      cases right with
      | object names' below' =>
          apply Alike.object
          · intro name
            exact (names name).trans (names' name)
          · intro name child last found found'
            have present := (names name).mp (Fields.mem_keys_iff.mpr ⟨child, found⟩)
            rcases Fields.mem_keys_iff.mp present with ⟨middle, isMiddle⟩
            apply ih name child middle found isMiddle
            exact below' name middle last isMiddle found'
  | @array items others length below ih =>
      cases right with
      | array length' below' =>
          apply Alike.array (length.trans length')
          intro position child last found found'
          have inside : position < others.length := by
            have within := (List.getElem?_eq_some_iff.mp found).1
            omega
          have isMiddle := List.getElem?_eq_getElem inside
          apply ih position child _ found isMiddle
          exact below' position _ last isMiddle found'

theorem keys_perm {fields others : List (String × Node)}
    (alike : (Node.object fields).Alike (.object others))
    (distinct : (Node.object fields).KeysDistinct)
    (distinct' : (Node.object others).KeysDistinct) :
    (Fields.keys fields).Perm (Fields.keys others) := by
  cases alike with
  | object names below =>
      cases distinct with
      | object distinctNames _ =>
          cases distinct' with
          | object distinctNames' _ =>
              rw [List.perm_ext_iff_of_nodup distinctNames distinctNames']
              exact names

end Alike

theorem sameFields_iff {fields others : List (String × Node)} :
    sameFields fields others = true ↔
      ∀ field ∈ fields, ∃ other, Fields.get? others field.1 = some other ∧
        field.2.same other = true := by
  induction fields with
  | nil => simp [sameFields]
  | cons field rest ih =>
      rw [sameFields, Bool.and_eq_true, List.forall_mem_cons, ih]
      cases Fields.get? others field.1 <;> simp

theorem sameItems_iff {items others : List Node} :
    sameItems items others = true ↔
      items.length = others.length ∧ ∀ (position : Nat) (child other : Node),
        items[position]? = some child → others[position]? = some other →
          child.same other = true := by
  induction items generalizing others with
  | nil => cases others <;> simp [sameItems]
  | cons item rest ih =>
      cases others with
      | nil => simp [sameItems]
      | cons other others =>
          rw [sameItems, Bool.and_eq_true, ih]
          constructor
          · rintro ⟨first, length, later⟩
            refine ⟨by simp [length], ?_⟩
            intro position child other found found'
            cases position with
            | zero =>
                cases found
                cases found'
                exact first
            | succ position => exact later position child other found found'
          · rintro ⟨length, each⟩
            refine ⟨each 0 item other rfl rfl, by simpa using length, ?_⟩
            intro position child other found found'
            exact each (position + 1) child other found found'

/-- One object has the names of another one of the same size, so the other has no further ones. -/
theorem names_iff_of_length {fields others : List (String × Node)}
    (distinct : (Fields.keys fields).Nodup) (length : fields.length = others.length)
    (within : Fields.keys fields ⊆ Fields.keys others) (name : String) :
    name ∈ Fields.keys fields ↔ name ∈ Fields.keys others := by
  have sameNames : (Fields.keys fields).Perm (Fields.keys others) := by
    apply (List.subperm_of_subset distinct within).perm_of_length_le
    simp [Fields.keys, length]
  exact sameNames.mem_iff

theorem alike_of_same {first second : Node} (distinct : first.KeysDistinct)
    (checked : first.same second = true) : first.Alike second := by
  induction distinct generalizing second with
  | value text =>
      cases second with
      | value other =>
          rw [same, beq_iff_eq] at checked
          rw [checked]
          exact .value other
      | object others => simp [same] at checked
      | array others => simp [same] at checked
  | @object fields names below ih =>
      cases second with
      | value other => simp [same] at checked
      | array others => simp [same] at checked
      | object others =>
          rw [same, Bool.and_eq_true, beq_iff_eq, sameFields_iff] at checked
          rcases checked with ⟨length, each⟩
          apply Alike.object
          · apply names_iff_of_length names length
            intro name name_mem
            rcases List.mem_map.mp name_mem with ⟨field, field_mem, rfl⟩
            rcases each field field_mem with ⟨other, found, _⟩
            exact Fields.mem_keys_iff.mpr ⟨other, found⟩
          · intro name child other found found'
            have field_mem := Fields.mem_of_get? found
            rcases each _ field_mem with ⟨own, isOwn, checkedBelow⟩
            cases isOwn.symm.trans found'
            exact ih _ field_mem checkedBelow
  | @array items below ih =>
      cases second with
      | value other => simp [same] at checked
      | object others => simp [same] at checked
      | array others =>
          rw [same, sameItems_iff] at checked
          apply Alike.array checked.1
          intro position child other found found'
          apply ih _ (List.mem_of_getElem? found)
          exact checked.2 position child other found found'

theorem same_of_alike {first second : Node} (distinct : first.KeysDistinct)
    (distinct' : second.KeysDistinct) (alike : first.Alike second) : first.same second = true := by
  induction alike with
  | value text => simp [same]
  | @object fields others names below ih =>
      have sameNames := (Alike.object names below).keys_perm distinct distinct'
      cases distinct with
      | object distinctNames distinctBelow =>
          cases distinct' with
          | object _ distinctBelow' =>
              rw [same, Bool.and_eq_true, beq_iff_eq, sameFields_iff]
              refine ⟨by simpa [Fields.keys] using sameNames.length_eq, ?_⟩
              intro field field_mem
              have found := Fields.get?_of_mem distinctNames field_mem
              have present := (names field.1).mp (Fields.mem_keys_iff.mpr ⟨field.2, found⟩)
              rcases Fields.mem_keys_iff.mp present with ⟨other, found'⟩
              refine ⟨other, found', ?_⟩
              apply ih field.1 field.2 other found found'
              · exact distinctBelow _ field_mem
              · exact distinctBelow' _ (Fields.mem_of_get? found')
  | array length below ih =>
      cases distinct with
      | array distinctBelow =>
          cases distinct' with
          | array distinctBelow' =>
              rw [same, sameItems_iff]
              refine ⟨length, ?_⟩
              intro position child other found found'
              apply ih position child other found found'
              · exact distinctBelow _ (List.mem_of_getElem? found)
              · exact distinctBelow' _ (List.mem_of_getElem? found')

/-- Without repeated names, the check of two trees decides whether they are alike. -/
theorem same_iff_alike {first second : Node} (distinct : first.KeysDistinct)
    (distinct' : second.KeysDistinct) : first.same second = true ↔ first.Alike second :=
  ⟨alike_of_same distinct, same_of_alike distinct distinct'⟩

/-- The check of two trees is an equivalence where no name is repeated. -/
theorem same_equivalence :
    Equivalence fun first second : { node : Node // node.KeysDistinct } =>
      first.1.same second.1 = true := by
  refine ⟨?_, ?_, ?_⟩
  · rintro ⟨node, distinct⟩
    exact same_of_alike distinct distinct (Alike.refl node distinct)
  · rintro ⟨first, distinct⟩ ⟨second, distinct'⟩ checked
    apply same_of_alike distinct' distinct
    exact (alike_of_same distinct checked).symm
  · rintro ⟨first, distinct⟩ ⟨second, distinct'⟩ ⟨third, distinct''⟩ left right
    apply same_of_alike distinct distinct''
    exact (alike_of_same distinct left).trans (alike_of_same distinct' right)

namespace Alike

variable {first second : Node}

/-- A step from alike nodes meets the same obstacle or leads to alike children. -/
theorem step (alike : first.Alike second) (segment : Segment) :
    Agree Alike (first.step segment) (second.step segment) := by
  cases alike with
  | value text => cases segment <;> exact .error _
  | @object fields others names below =>
      cases segment with
      | index position => exact .error _
      | key name =>
          have related := (Alike.object names below).get? name
          rw [Node.step, Node.step]
          generalize Fields.get? fields name = child, Fields.get? others name = other at related ⊢
          cases related with
          | none => exact .error _
          | some alikeBelow => exact .ok alikeBelow
  | @array items others length below =>
      cases segment with
      | key name => exact .error _
      | index position =>
          rw [Node.step, Node.step]
          cases found : items[position]? with
          | none =>
              have beyond : others[position]? = none := by
                rw [List.getElem?_eq_none_iff] at found ⊢
                omega
              rw [beyond, length]
              exact .error _
          | some child =>
              have inside : position < others.length := by
                have within := (List.getElem?_eq_some_iff.mp found).1
                omega
              rw [List.getElem?_eq_getElem inside]
              apply Agree.ok
              exact below position child _ found (List.getElem?_eq_getElem inside)

theorem steps (alike : first.Alike second) (taken segments : List Segment) :
    Agree Alike (first.steps taken segments) (second.steps taken segments) := by
  induction segments generalizing first second taken with
  | nil => exact .ok alike
  | cons segment rest ih =>
      have stepped := alike.step segment
      rw [Node.steps, Node.steps]
      generalize first.step segment = child, second.step segment = other at stepped ⊢
      cases stepped with
      | error obstacle => exact .error _
      | ok alikeBelow => exact ih alikeBelow (taken ++ [segment])

theorem answer (path : String) (bad : Option BadBracket)
    {stepped stepped' : Except (List Segment × Obstacle) Node}
    (agree : Agree Alike stepped stepped') :
    Agree Alike (Node.answer path bad stepped) (Node.answer path bad stepped') := by
  cases agree with
  | error stopped => exact .error _
  | ok alike =>
      cases bad with
      | none => exact .ok alike
      | some bad => exact .error _

end Alike

section Write

variable {node other : Option Node}

theorem get?_fieldsOf_alike (alike : Option.Rel Alike node other) (name : String) :
    Option.Rel Alike (Fields.get? (fieldsOf node) name) (Fields.get? (fieldsOf other) name) := by
  cases alike with
  | none => exact .none
  | some alikeRoot =>
      cases alikeRoot with
      | value text => exact .none
      | object names below => exact (Alike.object names below).get? name
      | array length below => exact .none

/-- A write is allowed or refused for the same reason in alike trees. -/
theorem writableKeys_alike (alike : Option.Rel Alike node other) (taken segments : List Segment) :
    writableKeys taken node segments = writableKeys taken other segments := by
  induction segments generalizing node other taken with
  | nil => rfl
  | cons segment rest ih =>
      cases segment with
      | index position => rfl
      | key name =>
          have below := ih (get?_fieldsOf_alike alike name) (taken ++ [.key name])
          cases alike with
          | none => rfl
          | some alikeRoot =>
              cases alikeRoot with
              | value text => rfl
              | object names below' => rw [writableKeys, writableKeys, below] <;> simp
              | array length below' => rfl

/-- Alike fields stay alike when alike values are set at a name. -/
theorem get?_insert_alike {fields others : List (String × Node)} {child child' : Node}
    (each : ∀ name, Option.Rel Alike (Fields.get? fields name) (Fields.get? others name))
    (alike : child.Alike child') (key name : String) :
    Option.Rel Alike (Fields.get? (Fields.insert key child fields) name)
      (Fields.get? (Fields.insert key child' others) name) := by
  by_cases same : key = name
  · subst name
    rw [Fields.get?_insert_self, Fields.get?_insert_self]
    exact .some alike
  · rw [Fields.get?_insert_of_ne _ _ same, Fields.get?_insert_of_ne _ _ same]
    exact each name

/-- A leaf put into alike trees leaves alike trees. -/
theorem put_alike (leaf : Option String) (alike : Option.Rel Alike node other)
    (keys : List String) : (put (.value leaf) keys node).Alike (put (.value leaf) keys other) := by
  induction keys generalizing node other with
  | nil => exact .value leaf
  | cons key rest ih =>
      rw [put, put]
      apply Alike.object_of_get?
      apply get?_insert_alike (get?_fieldsOf_alike alike)
      exact ih (get?_fieldsOf_alike alike key)

end Write

end Node

end ConfigTree
