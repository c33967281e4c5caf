/-!
# Ordered fields

The fields of an object are a list of names and values in the order in which the names came in.
A name that is written again keeps its place and takes the new value.
-/

namespace ConfigTree.Fields

variable {α β : Type}

/-- The value of the first field with a name. -/
def get? : List (String × α) → String → Option α
  | [], _ => none
  | (name, value) :: rest, wanted => if name = wanted then some value else get? rest wanted

/-- Gives a name a value: in place where the name is present, else at the end. -/
def insert (wanted : String) (value : α) : List (String × α) → List (String × α)
  | [] => [(wanted, value)]
  | (name, old) :: rest =>
    if name = wanted then (name, value) :: rest else (name, old) :: insert wanted value rest

/-- The names in order. -/
def keys (fields : List (String × α)) : List String :=
  fields.map Prod.fst

@[simp]
theorem get?_insert_self (fields : List (String × α)) (name : String) (value : α) :
    get? (insert name value fields) name = some value := by
  induction fields with
  | nil => simp [insert, get?]
  | cons field rest ih =>
    by_cases same : field.1 = name <;> simp [insert, get?, same, ih]

theorem get?_insert_of_ne (fields : List (String × α)) {name other : String} (value : α)
    (distinct : name ≠ other) : get? (insert name value fields) other = get? fields other := by
  induction fields with
  | nil => simp [insert, get?, distinct]
  | cons field rest ih =>
    by_cases same : field.1 = name
    · simp [insert, get?, same, distinct]
    · simp [insert, get?, same, ih]

theorem mem_of_get? {fields : List (String × α)} {name : String} {value : α}
    (found : get? fields name = some value) : (name, value) ∈ fields := by
  induction fields with
  | nil => simp [get?] at found
  | cons field rest ih =>
    obtain ⟨key, old⟩ := field
    by_cases same : key = name
    · simp [get?, same] at found
      simp [same, found]
    · simp [get?, same] at found
      simp [ih found]

theorem mem_keys_iff {fields : List (String × α)} {name : String} :
    name ∈ keys fields ↔ ∃ value, get? fields name = some value := by
  induction fields with
  | nil => simp [keys, get?]
  | cons field rest ih =>
    simp only [keys] at ih
    by_cases same : field.1 = name
    · simp [keys, get?, same]
    · have other : name ≠ field.1 := fun h => same h.symm
      simp [keys, get?, same, other, ih]

/-- Where no name is repeated, every field is found by its name. -/
theorem get?_of_mem {fields : List (String × α)} {name : String} {value : α}
    (distinct : (keys fields).Nodup) (member : (name, value) ∈ fields) :
    get? fields name = some value := by
  induction fields with
  | nil => cases member
  | cons first rest ih =>
    obtain ⟨key, old⟩ := first
    simp only [keys, List.map_cons, List.nodup_cons] at distinct
    rcases List.mem_cons.mp member with isFirst | later
    · cases isFirst
      simp [get?]
    · have other : key ≠ name := by
        rintro rfl
        exact distinct.1 (List.mem_map_of_mem later)
      simp only [get?, other, if_false]
      exact ih distinct.2 later

/-- The names after a write: unchanged where the name was present, else with the name behind. -/
theorem keys_insert (fields : List (String × α)) (name : String) (value : α) :
    keys (insert name value fields) =
      if name ∈ keys fields then keys fields else keys fields ++ [name] := by
  induction fields with
  | nil => simp [insert, keys]
  | cons field rest ih =>
    by_cases same : field.1 = name
    · simp [insert, keys, same]
    · have other : name ≠ field.1 := fun h => same h.symm
      simp only [keys] at ih
      by_cases present : name ∈ rest.map Prod.fst <;>
        simp [insert, keys, same, other, ih, present]

theorem nodup_keys_insert {fields : List (String × α)} (name : String) (value : α)
    (distinct : (keys fields).Nodup) : (keys (insert name value fields)).Nodup := by
  rw [keys_insert]
  split
  · exact distinct
  · next absent =>
    rw [List.nodup_append]
    refine ⟨distinct, by simp, ?_⟩
    intro key member other final
    simp only [List.mem_singleton] at final
    rintro rfl
    exact absent (final ▸ member)

/-- A field after a write is the written one or was there before. -/
theorem mem_insert {fields : List (String × α)} {name : String} {value : α}
    {field : String × α} (member : field ∈ insert name value fields) :
    field.2 = value ∨ field ∈ fields := by
  induction fields with
  | nil => simp [insert] at member; simp [member]
  | cons first rest ih =>
    by_cases same : first.1 = name
    · simp [insert, same] at member
      rcases member with rfl | member
      · exact .inl rfl
      · exact .inr (by simp [member])
    · simp [insert, same] at member
      rcases member with rfl | member
      · exact .inr (by simp)
      · rcases ih member with written | old
        · exact .inl written
        · exact .inr (by simp [old])

end ConfigTree.Fields
