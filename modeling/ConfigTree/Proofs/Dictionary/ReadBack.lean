import ConfigTree.Proofs.Dictionary.Part
import ConfigTree.Proofs.KeyValue.OrderedWrites
import ConfigTree.Proofs.Node.Addressable

/-!
# What is written by path is read back by path

Dictionaries come about by writes and by loading texts. Every write goes by a
path, and a path that can be written consists of names that name themselves. So
the tree stays addressable whatever is called, in whatever order, also where a
call fails: a refused write changes nothing, and a text that cannot be loaded
leaves the writes of its first entries. In an addressable tree each node is
found again at the names that lead to it, joined by dots.
-/

namespace ConfigTree

namespace Dictionary

/-- A call that may change a dictionary. -/
inductive Operation where
  | set (path value : String)
  | setNull (path : String)
  | load (options : KeyValue.Options) (text : String)

/-- What an operation leaves, whether it succeeds or fails. -/
def Operation.perform (dictionary : Dictionary) : Operation → Dictionary
  | set path value => (dictionary.writeInto path (some value)).2
  | setNull path => (dictionary.writeInto path none).2
  | load options text => (KeyValue.loadInto options text dictionary).2

/-- Operations lead to the dictionary from an empty one or from a text. -/
inductive Reached : Dictionary → Prop where
  | empty : Reached .empty
  | loaded {options : KeyValue.Options} {text : String} {dictionary : Dictionary}
      (loaded : KeyValue.load options text = .ok dictionary) : Reached dictionary
  | performed {dictionary : Dictionary} (reached : Reached dictionary) (operation : Operation) :
      Reached (operation.perform dictionary)

/-- The tree of the dictionary, if there is one, is addressable. -/
def Addressable (dictionary : Dictionary) : Prop :=
  ∀ root, dictionary.root = some root → root.Addressable

variable {dictionary after : Dictionary}

theorem addressable_emptyObject : emptyObject.Addressable := by
  intro root isRoot
  cases isRoot
  exact .object (by simp [Fields.keys, Node.mergedFields]) (by simp [Node.mergedFields])

theorem Addressable.of_write {path : String} {leaf : Option String}
    (addressable : dictionary.Addressable) (written : dictionary.write path leaf = .ok after) :
    after.Addressable := by
  intro root isRoot
  rcases of_write_eq_ok written with ⟨keys, read, _, isPut, _⟩
  cases isPut.symm.trans isRoot
  exact Node.addressable_put leaf (fun _ mem => Path.tokenize_key_of_mem read mem) addressable

theorem Addressable.writeAll {ending : Option Fault} {written : Nat} {entries : List KeyValue.Entry}
    (addressable : dictionary.Addressable) :
    (KeyValue.writeAll ending written dictionary entries).2.Addressable := by
  induction entries generalizing written dictionary with
  | nil => cases ending <;> exact addressable
  | cons entry rest ih =>
      rw [KeyValue.writeAll]
      cases set : dictionary.set entry.key entry.value with
      | error refusal =>
          rw [KeyValue.writeTo_of_set_eq_error set]
          exact addressable
      | ok after =>
          rw [KeyValue.writeTo_of_set_eq_ok set]
          exact ih (addressable.of_write set)

/-- Loading a text onto an addressable tree, it may succeed or fail, leaves an addressable tree. -/
theorem Addressable.loadInto (options : KeyValue.Options) (text : String)
    (addressable : dictionary.Addressable) :
    (KeyValue.loadInto options text dictionary).2.Addressable := by
  cases accepted : options.validate with
  | error fault =>
      rw [KeyValue.loadInto, accepted]
      exact addressable
  | ok _ =>
      rw [KeyValue.loadInto_eq_writeOnto accepted]
      exact addressable.writeAll

theorem Addressable.writeInto (addressable : dictionary.Addressable) (path : String)
    (leaf : Option String) : (dictionary.writeInto path leaf).2.Addressable := by
  rw [writeInto_eq]
  cases written : dictionary.write path leaf with
  | error refusal => exact addressable
  | ok after => exact addressable.of_write written

theorem Addressable.perform (addressable : dictionary.Addressable) (operation : Operation) :
    (operation.perform dictionary).Addressable := by
  cases operation with
  | set path value => exact addressable.writeInto path (some value)
  | setNull path => exact addressable.writeInto path none
  | load options text => exact addressable.loadInto options text

theorem Reached.addressable (reached : dictionary.Reached) : dictionary.Addressable := by
  induction reached with
  | empty => rintro _ ⟨⟩
  | @loaded options text dictionary loaded =>
      rcases KeyValue.loadInto_of_load_eq_ok loaded with ⟨total, run⟩
      have left := addressable_emptyObject.loadInto options text
      rw [run] at left
      exact left
  | performed reached operation ih => exact ih.perform operation

theorem Addressable.locate_of_at {root node : Node} {names : List String}
    (addressable : dictionary.Addressable) (isRoot : dictionary.root = some root)
    (stands : root.At names node) :
    dictionary.locate (String.intercalate "." names) = .ok node := by
  have read : Path.tokenize (String.intercalate "." names) = .ok (names.map Segment.key) :=
    Path.tokenize_intercalate (stands.names (addressable root isRoot))
  rw [locate_eq_answer_of_root isRoot, Path.tokenize_eq_ok_iff.mp read,
    stands.steps (dictionary.keysDistinct root isRoot)]
  rfl

/-- Whatever has been called, what is in the tree can be read back by path: there are no arrays, no
name is repeated in an object, each name can be written as a path, and the names that lead to a node
are, joined by dots, a path at which exactly this node is found. -/
theorem exists_sub_eq_ok_of_reached {root : Node} (reached : dictionary.Reached)
    (isRoot : dictionary.root = some root) :
    root.Addressable ∧ root.KeysDistinct ∧
      ∀ names node, root.At names node →
        ∃ part, dictionary.sub (String.intercalate "." names) = .ok part ∧
          part.root = some node ∧ part.SamePolicy dictionary := by
  have addressable : dictionary.Addressable := reached.addressable
  refine ⟨addressable root isRoot, dictionary.keysDistinct root isRoot, ?_⟩
  intro names node stands
  exact exists_sub_eq_ok (addressable.locate_of_at isRoot stands)

/-- After a write that is refused and a text that fails in its last line, the null is found at the
names under which it has been written. -/
theorem exists_sub_eq_ok_of_reached_null :
    ∃ dictionary part : Dictionary, dictionary.Reached ∧
      dictionary = (Operation.setNull "m . c d").perform
        ((Operation.load .ini "[m]\na = 1\nb[0] = 2").perform
          ((Operation.set "m[0]" "3").perform .empty)) ∧
      dictionary.sub "m.c d" = .ok part ∧ part.root = some .null := by
  have reached : Reached ((Operation.setNull "m . c d").perform
      ((Operation.load .ini "[m]\na = 1\nb[0] = 2").perform
        ((Operation.set "m[0]" "3").perform .empty))) :=
    ((Reached.empty.performed _).performed _).performed _
  have isRoot : ((Operation.setNull "m . c d").perform
      ((Operation.load .ini "[m]\na = 1\nb[0] = 2").perform
        ((Operation.set "m[0]" "3").perform .empty))).root =
      some (.object [("m", .object [("a", .ofText "1"), ("c d", .null)])]) := by rfl
  have stands : Node.At (.object [("m", .object [("a", .ofText "1"), ("c d", .null)])])
      ["m", "c d"] .null :=
    .field (List.mem_singleton_self _) (.field (by simp) .here)
  rcases (exists_sub_eq_ok_of_reached reached isRoot).2.2 _ _ stands with
    ⟨part, found, isNull, _⟩
  exact ⟨_, part, reached, rfl, found, isNull⟩

end Dictionary

end ConfigTree
