import ConfigTree.Proofs.Dictionary.Descent
import ConfigTree.Proofs.Dictionary.LastWrite

/-!
# What a write changes and what it leaves alone

After a write there are objects on the way down its keys and the leaf at their end.
An object that was on the way before keeps its fields in their order; only the field
of the next key is another one, or a new one at the end. Anything else on the way has
become an object of this one field.

Everything off this way stays. Where segments go another way than the keys, they lead
into a field that has been kept, or they did not lead anywhere before and do not now:
in front of the place there was a value or nothing, and now there is an object of one
field, which is not theirs. An array cannot have been there, for the write would have
been refused.
-/

namespace ConfigTree

/-- Fields after a write at one name: the names stay in their order, the name of the write comes to
the end if it is new, and all other fields are as they were. -/
structure Fields.WrittenAt {α : Type} (name : String) (old fields : List (String × α)) : Prop where
  names : Fields.keys fields =
    if name ∈ Fields.keys old then Fields.keys old else Fields.keys old ++ [name]
  others : ∀ other, other ≠ name → Fields.get? fields other = Fields.get? old other

/-- Segments and names differ at a position that both have. -/
def Segment.Departs (segments : List Segment) (names : List String) : Prop :=
  ∃ (position : Nat) (segment : Segment) (name : String), segments[position]? = some segment ∧
    names[position]? = some name ∧ segment ≠ .key name

theorem Fields.writtenAt_insert {α : Type} (name : String) (value : α)
    (old : List (String × α)) : Fields.WrittenAt name old (Fields.insert name value old) :=
  ⟨Fields.keys_insert old name value,
    fun _ different => Fields.get?_insert_of_ne old value different.symm⟩

namespace Segment

variable {segment : Segment} {segments : List Segment} {name : String} {names : List String}

theorem departs_cons_iff :
    Departs (segment :: segments) (name :: names) ↔
      segment ≠ .key name ∨ Departs segments names := by
  constructor
  · rintro ⟨position, own, other, isOwn, isOther, different⟩
    cases position with
    | zero =>
        cases isOwn
        cases isOther
        exact .inl different
    | succ position => exact .inr ⟨position, own, other, isOwn, isOther, different⟩
  · rintro (different | ⟨position, own, other, isOwn, isOther, different⟩)
    · exact ⟨0, segment, name, rfl, rfl, different⟩
    · exact ⟨position + 1, own, other, isOwn, isOther, different⟩

theorem not_departs_nil : ¬Departs segments [] := by
  rintro ⟨position, _, _, _, isName, _⟩
  simp at isName

theorem not_nil_departs : ¬Departs [] names := by
  rintro ⟨position, _, _, isSegment, _⟩
  simp at isSegment

end Segment

namespace Node

variable {root : Option Node} {leaf node : Node} {keys : List String}

theorem leadsFrom_put (leaf : Node) (keys : List String) (root : Option Node) :
    LeadsFrom (some (put leaf keys root)) (keys.map Segment.key) leaf := by
  induction keys generalizing root with
  | nil => simp [put]
  | cons key rest ih =>
      rw [List.map_cons, leadsFrom_key_iff, put, fieldsOf, Fields.get?_insert_self]
      exact ih _

/-- A write leaves an object above each of its keys. -/
theorem exists_object_above (leaf : Node) (above : List String) (key : String)
    (behind : List String) (root : Option Node) :
    ∃ fields, LeadsFrom (some (put leaf (above ++ key :: behind) root)) (above.map Segment.key)
        (.object fields) ∧
      (∀ old, LeadsFrom root (above.map Segment.key) (.object old) →
        Fields.WrittenAt key old fields) ∧
      ((∀ old, ¬LeadsFrom root (above.map Segment.key) (.object old)) →
        Fields.keys fields = [key]) := by
  induction above generalizing root with
  | nil =>
      simp only [List.nil_append, List.map_nil, leadsFrom_nil_iff, put]
      refine ⟨_, rfl, ?_, ?_⟩
      · rintro old rfl
        exact Fields.writtenAt_insert key _ old
      · intro noObject
        have noFields : fieldsOf root = [] := by
          unfold fieldsOf
          split
          · next old => exact absurd rfl (noObject old)
          · rfl
        rw [noFields]
        rfl
  | cons name above ih =>
      simp only [List.cons_append, List.map_cons, leadsFrom_key_iff, put, fieldsOf,
        Fields.get?_insert_self]
      exact ih _

/-- Segments that depart from the keys of a write lead to the same node before and after it. -/
theorem leadsFrom_put_iff_of_departs {segments : List Segment} (writable : Writable keys root)
    (departs : Segment.Departs segments keys) :
    LeadsFrom (some (put leaf keys root)) segments node ↔ LeadsFrom root segments node := by
  induction keys generalizing root segments with
  | nil => exact absurd departs Segment.not_departs_nil
  | cons key keys ih =>
      rcases writable with ⟨noArray, writableBelow⟩
      cases segments with
      | nil => exact absurd departs Segment.not_nil_departs
      | cons segment segments =>
          cases segment with
          | index position =>
              -- Where the write makes an object there was no array, so positions lead nowhere.
              apply iff_of_false
              · exact not_leadsFrom_index (by simp [put]) position
              · exact not_leadsFrom_index noArray position
          | key name =>
              rw [leadsFrom_key_iff, leadsFrom_key_iff, put, fieldsOf]
              by_cases same : key = name
              · subst name
                rw [Fields.get?_insert_self]
                apply ih writableBelow
                rw [Segment.departs_cons_iff] at departs
                exact departs.resolve_left (fun different => different rfl)
              · rw [Fields.get?_insert_of_ne _ _ same]

end Node

namespace Dictionary

variable {dictionary after : Dictionary} {write : Write}

/-- A write puts its leaf at its keys and makes objects above it. Objects that were there keep all
but one field; the rest of the tree and the policy stay as they are. -/
theorem effect_of_apply (applied : dictionary.apply write = .ok after) :
    ∃ keys, Path.tokenize write.path = .ok (keys.map Segment.key) ∧
      Node.LeadsFrom after.root (keys.map Segment.key) (.value write.leaf) ∧
      (∀ above key behind, keys = above ++ key :: behind →
        ∃ fields, Node.LeadsFrom after.root (above.map Segment.key) (.object fields) ∧
          (∀ old, Node.LeadsFrom dictionary.root (above.map Segment.key) (.object old) →
            Fields.WrittenAt key old fields) ∧
          ((∀ old, ¬Node.LeadsFrom dictionary.root (above.map Segment.key) (.object old)) →
            Fields.keys fields = [key])) ∧
      (∀ path segments syntaxFault, Path.Reads path segments syntaxFault →
        Segment.Departs segments keys →
          ∀ node, after.locate path = .ok node ↔ dictionary.locate path = .ok node) ∧
      after.SamePolicy dictionary := by
  rw [apply_eq_write] at applied
  rcases of_write_eq_ok applied with ⟨keys, read, writable, isPut, policy⟩
  refine ⟨keys, read, ?_, ?_, ?_, policy⟩
  · rw [isPut]
    exact Node.leadsFrom_put _ keys dictionary.root
  · rintro above key behind rfl
    rw [isPut]
    exact Node.exists_object_above _ above key behind dictionary.root
  · intro path segments syntaxFault reads departs node
    rw [locate_eq_ok_iff_of_reads reads, locate_eq_ok_iff_of_reads reads, isPut,
      Node.leadsFrom_put_iff_of_departs writable departs]

/-- A value gives way to an object in its place among the fields, and the array beside it stays. -/
theorem effect_of_apply_value :
    ∃ dictionary after : Dictionary,
      dictionary.root = some (.object [("z", .null),
        ("m", .object [("b", .ofText "x"), ("a", .array [.ofText "1"])])]) ∧
      dictionary.apply ⟨"m. b.c", some "2"⟩ = .ok after ∧
      (∃ fields, Node.LeadsFrom after.root [.key "m"] (.object fields) ∧
        Fields.keys fields = ["b", "a"]) ∧
      (∃ fields, Node.LeadsFrom after.root [.key "m", .key "b"] (.object fields) ∧
        Fields.keys fields = ["c"]) ∧
      after.locate "m.a[0]" = .ok (.ofText "1") := by
  generalize isBefore : ofNode (.object [("z", .null),
    ("m", .object [("b", .ofText "x"), ("a", .array [.ofText "1"])])]) = dictionary
  have isRoot : dictionary.root = some (.object [("z", .null),
      ("m", .object [("b", .ofText "x"), ("a", .array [.ofText "1"])])]) := by
    rw [← isBefore]
    rfl
  have read : Path.tokenize "m. b.c" = .ok (["m", "b", "c"].map Segment.key) := by decide
  have writable : Node.Writable ["m", "b", "c"] dictionary.root := by
    rw [isRoot]
    simp [Node.Writable, Node.fieldsOf, Fields.get?, Node.ofText]
  rcases exists_write_eq_ok (some "2") read writable with ⟨after, written⟩
  have applied : dictionary.apply ⟨"m. b.c", some "2"⟩ = .ok after := written
  rcases effect_of_apply applied with ⟨keys, keysRead, _, objects, kept, _⟩
  cases Path.keys_unique keysRead read
  refine ⟨dictionary, after, isRoot, applied, ?_, ?_, ?_⟩
  · rcases objects ["m"] "b" ["c"] rfl with ⟨fields, leads, wasObject, _⟩
    refine ⟨fields, leads, ?_⟩
    have was : Node.LeadsFrom dictionary.root [.key "m"]
        (.object [("b", .ofText "x"), ("a", .array [.ofText "1"])]) :=
      ⟨_, isRoot, .field rfl .here⟩
    exact (wasObject _ was).names
  · rcases objects ["m", "b"] "c" [] rfl with ⟨fields, leads, _, wasOther⟩
    refine ⟨fields, leads, wasOther ?_⟩
    rintro old ⟨_, isStart, leadsBefore⟩
    cases isRoot.symm.trans isStart
    cases Node.leads_iff_reach.mp leadsBefore
  · have reads : Path.Reads "m.a[0]" [.key "m", .key "a", .index 0] none := .whole (by decide)
    rw [kept _ _ _ reads ⟨1, .key "a", "b", rfl, rfl, by decide⟩, locate_eq_ok_iff_of_reads reads]
    exact ⟨rfl, _, isRoot, .field rfl (.field rfl (.element rfl .here))⟩

end Dictionary

end ConfigTree
