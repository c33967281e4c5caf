import ConfigTree.Proofs.Dictionary.LastWrite
import ConfigTree.Proofs.Node.Leads

/-!
# Writes that are refused

A path is read as a whole before a write looks at the tree, so a malformed piece is
reported wherever it stands. The segments are then checked from the root on. The
first one with which the write cannot go on decides: it is a position, or the
segments before it lead to an array. `Node.FirstStop` says this of the tree and the
segments alone; the check in the writer goes down the tree as the write would, through
objects made out of values and out of nothing, but nothing stands below such an
object, and so no array either.
-/

namespace ConfigTree

/-- Why a write cannot go on with a segment behind others. -/
def WriteRefusal.behind (taken : List Segment) : Segment → WriteRefusal
  | .index position => .index position
  | .key _ => .array taken

namespace Node

variable {root : Option Node} {name : String} {before segments taken : List Segment}
  {segment : Segment} {keys : List String}

/-- A write cannot go on with a segment: it is a position, or the segments before it lead to an
array. -/
def Stops (root : Option Node) (before : List Segment) (segment : Segment) : Prop :=
  (∃ position, segment = .index position) ∨ ∃ items, LeadsFrom root before (.array items)

/-- A write cannot go on with a segment, but with all segments before it. -/
structure FirstStop (root : Option Node) (before : List Segment) (segment : Segment) : Prop where
  stops : Stops root before segment
  first : ∀ earlier other later, before = earlier ++ other :: later → ¬Stops root earlier other

theorem stops_key_cons_iff :
    Stops root (.key name :: before) segment ↔
      Stops (Fields.get? (fieldsOf root) name) before segment := by
  simp [Stops, leadsFrom_key_iff]

theorem firstStop_nil_iff : FirstStop root [] segment ↔ Stops root [] segment := by
  constructor
  · exact FirstStop.stops
  · intro stops
    exact ⟨stops, by simp⟩

theorem not_firstStop_index_cons (position : Nat) :
    ¬FirstStop root (.index position :: before) segment := by
  intro stop
  exact stop.first [] (.index position) before rfl (.inl ⟨position, rfl⟩)

theorem firstStop_key_cons_iff :
    FirstStop root (.key name :: before) segment ↔
      ¬Stops root [] (.key name) ∧ FirstStop (Fields.get? (fieldsOf root) name) before segment := by
  constructor
  · rintro ⟨stops, first⟩
    refine ⟨first [] _ _ rfl, stops_key_cons_iff.mp stops, ?_⟩
    rintro earlier other later rfl
    rw [← stops_key_cons_iff]
    exact first (.key name :: earlier) other later rfl
  · rintro ⟨passes, stops, first⟩
    refine ⟨stops_key_cons_iff.mpr stops, ?_⟩
    intro earlier other later split
    cases earlier with
    | nil =>
        cases split
        exact passes
    | cons _ earlier =>
        cases split
        rw [stops_key_cons_iff]
        exact first earlier other later rfl

theorem stops_key_iff : Stops root [] (.key name) ↔ ∃ items, root = some (.array items) := by
  simp [Stops]

/-- The first stop is the first segment, or stands behind it. -/
theorem exists_firstStop_cons_iff {first : Segment} {rest : List Segment}
    {P : List Segment → Segment → Prop} :
    (∃ before segment behind, first :: rest = before ++ segment :: behind ∧
      FirstStop root before segment ∧ P before segment) ↔
      (Stops root [] first ∧ P [] first) ∨
        ∃ before segment behind, rest = before ++ segment :: behind ∧
          FirstStop root (first :: before) segment ∧ P (first :: before) segment := by
  constructor
  · rintro ⟨before, segment, behind, split, stop, holds⟩
    cases before with
    | nil =>
        cases split
        exact .inl ⟨stop.stops, holds⟩
    | cons _ before =>
        cases split
        exact .inr ⟨before, segment, behind, rfl, stop, holds⟩
  · rintro (⟨stops, holds⟩ | ⟨before, segment, behind, rfl, stop, holds⟩)
    · exact ⟨[], first, rest, rfl, firstStop_nil_iff.mpr stops, holds⟩
    · exact ⟨first :: before, segment, behind, rfl, stop, holds⟩

/-- The check of a path that is to be written fails at the first segment with which the write
cannot go on. -/
theorem writableKeys_eq_error_iff {refusal : WriteRefusal} :
    writableKeys taken root segments = .error refusal ↔
      ∃ before segment behind, segments = before ++ segment :: behind ∧
        FirstStop root before segment ∧ refusal = .behind (taken ++ before) segment := by
  induction segments generalizing taken root with
  | nil => simp [writableKeys]
  | cons first rest ih =>
      rw [exists_firstStop_cons_iff]
      cases first with
      | index position =>
          simp [writableKeys, Stops, not_firstStop_index_cons, WriteRefusal.behind, eq_comm]
      | key name =>
          simp only [firstStop_key_cons_iff, stops_key_iff]
          by_cases isArray : ∃ items, root = some (.array items)
          · rcases isArray with ⟨items, rfl⟩
            simp [writableKeys, WriteRefusal.behind, eq_comm]
          · have noArray : ∀ items, root ≠ some (.array items) :=
              fun items same => isArray ⟨items, same⟩
            have below := @ih (Fields.get? (fieldsOf root) name) (taken ++ [.key name])
            rw [writableKeys_key noArray]
            simp only [isArray, false_and, false_or, not_false_eq_true, true_and]
            simp only [List.append_assoc, List.singleton_append] at below
            rw [← below]
            cases writableKeys (taken ++ [.key name]) (Fields.get? (fieldsOf root) name) rest <;>
              simp [Except.map]

theorem writable_iff :
    Writable keys root ↔ ∀ above key behind items, keys = above ++ key :: behind →
      ¬LeadsFrom root (above.map Segment.key) (.array items) := by
  induction keys generalizing root with
  | nil => simp [Writable]
  | cons key rest ih =>
      rw [Writable, ih]
      constructor
      · rintro ⟨noArray, below⟩ above last behind items split
        cases above with
        | nil => simpa using noArray items
        | cons first more =>
            cases split
            rw [List.map_cons, leadsFrom_key_iff]
            exact below more last behind items rfl
      · intro free
        refine ⟨?_, ?_⟩
        · intro items
          simpa using free [] key rest items rfl
        · rintro above last behind items rfl
          rw [← leadsFrom_key_iff]
          exact free (key :: above) last behind items rfl

end Node

namespace Dictionary

/-- A write succeeds exactly if its path can be read, names keys only, and meets no array above the
last key. Otherwise the path cannot be read, or the first segment with which the write cannot go on
gives the fault. A write that is refused leaves the dictionary as it was, and no trace in a run. -/
theorem apply_refused_iff (dictionary : Dictionary) (write : Write) :
    ((∃ after, dictionary.apply write = .ok after) ↔
      ∃ keys, Path.tokenize write.path = .ok (keys.map Segment.key) ∧
        ∀ above key behind items, keys = above ++ key :: behind →
          ¬Node.LeadsFrom dictionary.root (above.map Segment.key) (.array items)) ∧
    (∀ fault, dictionary.apply write = .error fault ↔
      Path.tokenize write.path = .error fault ∨
      ∃ before segment behind, Path.tokenize write.path = .ok (before ++ segment :: behind) ∧
        Node.FirstStop dictionary.root before segment ∧
        fault =
          match segment with
          | .index position =>
            { kind := .unsupported write.path
                s!"Setting values through array index [{position}] is not supported"
              hint := some "Only object keys can be written"
              code := some 310 }
          | .key _ =>
            { kind := .unsupported write.path
                s!"Cannot write through the array at '{Path.render before}'"
              hint := some "Arrays cannot be modified with set"
              code := some 311 }) ∧
    (∀ fault, Path.tokenize write.path = .error fault → fault.family = .pathSyntax) ∧
    ∀ fault, dictionary.apply write = .error fault →
      dictionary.writeInto write.path write.leaf = (.error fault, dictionary) ∧
      ∀ later, dictionary.run (write :: later) = dictionary.run later := by
  refine ⟨?_, ?_, ?_, ?_⟩
  · rw [apply_eq_write, exists_write_eq_ok_iff]
    simp only [Node.writable_iff]
  · intro fault
    rw [apply_eq_write, write_eq_error_iff]
    apply or_congr_right
    constructor
    · rintro ⟨segments, refusal, read, refused, rfl⟩
      rcases Node.writableKeys_eq_error_iff.mp refused with
        ⟨before, segment, behind, rfl, stop, rfl⟩
      refine ⟨before, segment, behind, read, stop, ?_⟩
      cases segment <;> rfl
    · rintro ⟨before, segment, behind, read, stop, rfl⟩
      refine ⟨_, .behind before segment, read, ?_, ?_⟩
      · exact Node.writableKeys_eq_error_iff.mpr ⟨before, segment, behind, rfl, stop, rfl⟩
      · cases segment <;> rfl
  · exact fun fault => Path.family_of_tokenize_eq_error
  · intro fault refused
    refine ⟨?_, ?_⟩
    · rw [writeInto_eq, ← apply_eq_write, refused]
    · intro later
      rw [run_cons, refused]

end Dictionary

end ConfigTree
