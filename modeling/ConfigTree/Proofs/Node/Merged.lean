import ConfigTree.Node.Basic

/-!
# Trees with repeated keys

What a tree stands for if keys are repeated in it, said of its objects as a whole: every
key stays where it comes first, and what it is given last counts. There is exactly one
such tree, and entering the fields one after the other finds it.
-/

namespace ConfigTree

namespace Fields

variable {α : Type} {fields others : List (String × α)}

theorem get?_append (fields others : List (String × α)) (name : String) :
    get? (fields ++ others) name = (get? fields name).or (get? others name) := by
  induction fields with
  | nil => rfl
  | cons field rest ih =>
      by_cases same : field.1 = name
      · simp [get?, same]
      · simp [get?, same, ih]

theorem mem_keys_of_get? {name : String} {value : α} (found : get? fields name = some value) :
    name ∈ keys fields :=
  mem_keys_iff.mpr ⟨value, found⟩

/-- Fields without repeated names are determined by their names and what is under them. -/
theorem eq_of_get? (distinct : (keys fields).Nodup) (names : keys fields = keys others)
    (sameValues : ∀ name value value', get? fields name = some value →
      get? others name = some value' → value = value') : fields = others := by
  induction fields generalizing others with
  | nil => exact (List.map_eq_nil_iff.mp names.symm).symm
  | cons field rest ih =>
      cases others with
      | nil => cases names
      | cons other others =>
          rcases field with ⟨name, value⟩
          rcases other with ⟨name', value'⟩
          simp only [keys, List.map_cons, List.cons.injEq] at names
          rcases names with ⟨rfl, names⟩
          rw [keys, List.map_cons, List.nodup_cons] at distinct
          have head : value = value' :=
            sameValues name value value' (by simp [get?]) (by simp [get?])
          have tail : rest = others := by
            apply ih distinct.2 names
            intro name' value value' found found'
            have other : name ≠ name' := by
              rintro rfl
              exact distinct.1 (mem_keys_of_get? found)
            apply sameValues name' value value'
            · rw [get?, if_neg other, found]
            · rw [get?, if_neg other, found']
          rw [head, tail]

end Fields

namespace Node

/-- What a tree with repeated keys stands for. -/
inductive MergesTo : Node → Node → Prop where
  | value (text : Option String) : MergesTo (.value text) (.value text)
  | object {fields merged : List (String × Node)}
      (names : Fields.keys merged = (Fields.keys fields).eraseDups)
      (below : ∀ name node node', Fields.get? fields.reverse name = some node →
        Fields.get? merged name = some node' → MergesTo node node') :
      MergesTo (.object fields) (.object merged)
  | array {items merged : List Node} (length : merged.length = items.length)
      (below : ∀ (position : Nat) (node node' : Node), items[position]? = some node →
        merged[position]? = some node' → MergesTo node node') :
      MergesTo (.array items) (.array merged)

theorem keys_mergedFields (done fields : List (String × Node)) :
    Fields.keys (mergedFields done fields) =
      Fields.keys done ++ ((Fields.keys fields).removeAll (Fields.keys done)).eraseDups := by
  induction fields generalizing done with
  | nil => simp [mergedFields, Fields.keys, List.nil_removeAll]
  | cons field rest ih =>
      rcases field with ⟨name, node⟩
      have names : Fields.keys ((name, node) :: rest) = name :: Fields.keys rest := rfl
      rw [mergedFields, ih, Fields.keys_insert, names, List.cons_removeAll]
      split
      · next present => simp [present]
      · next absent =>
        have filtered : (Fields.keys rest).removeAll (Fields.keys done ++ [name]) =
            ((Fields.keys rest).removeAll (Fields.keys done)).filter
              fun other => !other == name := by
          rw [List.removeAll, List.removeAll, List.filter_filter]
          apply List.filter_congr
          intro other _
          by_cases same : other = name <;> simp [same]
        simp [absent, filtered, List.eraseDups_cons]

theorem get?_mergedFields (done fields : List (String × Node)) (name : String) :
    Fields.get? (mergedFields done fields) name =
      ((Fields.get? fields.reverse name).map merged).or (Fields.get? done name) := by
  induction fields generalizing done with
  | nil => simp [mergedFields, Fields.get?]
  | cons field rest ih =>
      rcases field with ⟨name', node⟩
      rw [mergedFields, ih, List.reverse_cons, Fields.get?_append]
      cases Fields.get? rest.reverse name with
      | some later => rfl
      | none =>
          by_cases same : name' = name
          · simp [same, Fields.get?]
          · simp [same, Fields.get?, Fields.get?_insert_of_ne _ _ same]

theorem mergedItems_eq_map (items : List Node) : mergedItems items = items.map merged := by
  induction items with
  | nil => rfl
  | cons item rest ih => rw [mergedItems, ih, List.map_cons]

theorem keys_merged (fields : List (String × Node)) :
    Fields.keys (mergedFields [] fields) = (Fields.keys fields).eraseDups := by
  rw [keys_mergedFields]
  simp [Fields.keys, List.removeAll_nil]

theorem get?_merged (fields : List (String × Node)) (name : String) :
    Fields.get? (mergedFields [] fields) name =
      (Fields.get? fields.reverse name).map merged := by
  rw [get?_mergedFields, Fields.get?, Option.or_none]

mutual

theorem mergesTo_merged : ∀ node : Node, node.MergesTo node.merged
  | .value text => .value text
  | .object fields => by
    rw [merged]
    apply MergesTo.object (keys_merged fields)
    intro name node node' found found'
    rw [get?_merged, found] at found'
    cases found'
    exact mergesTo_merged_of_field fields (name, node)
      (List.mem_reverse.mp (Fields.mem_of_get? found))
  | .array items => by
    rw [merged, mergedItems_eq_map]
    apply MergesTo.array (List.length_map merged)
    intro position node node' found found'
    rw [List.getElem?_map, found] at found'
    cases found'
    exact mergesTo_merged_of_item items node (List.mem_of_getElem? found)

theorem mergesTo_merged_of_field :
    ∀ (fields : List (String × Node)), ∀ field ∈ fields, field.2.MergesTo field.2.merged
  | [] => by simp
  | (name, node) :: rest => by
    intro field mem
    rcases List.mem_cons.mp mem with isFirst | mem
    · rw [isFirst]
      exact mergesTo_merged node
    · exact mergesTo_merged_of_field rest field mem

theorem mergesTo_merged_of_item :
    ∀ (items : List Node), ∀ item ∈ items, item.MergesTo item.merged
  | [] => by simp
  | first :: rest => by
    intro item mem
    rcases List.mem_cons.mp mem with isFirst | mem
    · rw [isFirst]
      exact mergesTo_merged first
    · exact mergesTo_merged_of_item rest item mem

end

variable {node tree : Node}

/-- No other tree is what a tree stands for. -/
theorem MergesTo.eq_merged (merges : node.MergesTo tree) : node.merged = tree := by
  induction merges with
  | value text => rw [merged]
  | @object fields merged names below ih =>
      rw [Node.merged, object.injEq]
      have distinct : (Fields.keys (mergedFields [] fields)).Nodup := by
        have all := keysDistinct_merged (.object fields)
        rw [Node.merged] at all
        cases all with
        | object distinct _ => exact distinct
      apply Fields.eq_of_get? distinct ((keys_merged fields).trans names.symm)
      intro name child child' found found'
      rw [get?_merged, Option.map_eq_some_iff] at found
      rcases found with ⟨last, found, rfl⟩
      exact ih name last child' found found'
  | @array items merged length below ih =>
      rw [Node.merged, mergedItems_eq_map, array.injEq]
      apply List.ext_getElem
      · rw [List.length_map, length]
      · intro position inItems inMerged
        rw [List.getElem_map]
        rw [List.length_map] at inItems
        exact ih position _ _ (List.getElem?_eq_getElem inItems) (List.getElem?_eq_getElem inMerged)

theorem eraseDups_of_nodup {names : List String} (distinct : names.Nodup) :
    names.eraseDups = names := by
  induction names with
  | nil => rfl
  | cons name rest ih =>
      rw [List.nodup_cons] at distinct
      have others : rest.filter (fun other => !other == name) = rest := by
        rw [List.filter_eq_self]
        rintro other mem
        have ne : other ≠ name := by
          rintro rfl
          exact distinct.1 mem
        simp [ne]
      rw [List.eraseDups_cons, others, ih distinct.2]

/-- A tree without repeated keys stands for itself. -/
theorem KeysDistinct.mergesTo (distinct : node.KeysDistinct) : node.MergesTo node := by
  induction distinct with
  | value text => exact .value text
  | @object fields names below ih =>
      apply MergesTo.object (eraseDups_of_nodup names).symm
      intro name child child' last first
      have mem := List.mem_reverse.mp (Fields.mem_of_get? last)
      cases (Fields.get?_of_mem names mem).symm.trans first
      exact ih _ mem
  | array below ih =>
      apply MergesTo.array rfl
      intro position child child' found found'
      cases found.symm.trans found'
      exact ih _ (List.mem_of_getElem? found)

end Node

end ConfigTree
