import ConfigTree.Conversion
import ConfigTree.Proofs.Dictionary.Part
import ConfigTree.Proofs.KeyValue.Reading
import ConfigTree.Proofs.Node.Alike

/-!
# The order of fields does not matter

Dictionaries whose trees differ in the order of fields only, under the same policy,
answer every call in the same way, faults and their texts included; only the order in
which names are listed may differ. A call that changes them, or takes a part of them,
leaves dictionaries that again differ in the order of fields only.
-/

namespace ConfigTree

namespace Dictionary

/-- Two dictionaries have the same policy and, up to the order of fields, the same tree. -/
def Alike (first second : Dictionary) : Prop :=
  first.SamePolicy second ∧
    Option.Rel (fun root root' => root.same root' = true) first.root second.root

variable {first second : Dictionary}

theorem alike_iff : first.Alike second ↔
    first.SamePolicy second ∧ Option.Rel Node.Alike first.root second.root := by
  apply and_congr_right
  intro _
  cases isRoot : first.root with
  | none => cases second.root <;> simp
  | some root =>
      cases isRoot' : second.root with
      | none => simp
      | some root' =>
          rw [Option.rel_some_some, Option.rel_some_some]
          exact Node.same_iff_alike (first.keysDistinct root isRoot)
            (second.keysDistinct root' isRoot')

namespace Alike

/-- At a path, both dictionaries have alike nodes, or neither of them has one. -/
theorem locate (alike : first.Alike second) (path : String) :
    Agree (fun node other => node.Alike other ∧ node.KeysDistinct ∧ other.KeysDistinct)
      (first.locate path) (second.locate path) := by
  have found : Agree Node.Alike (first.locate path) (second.locate path) := by
    rcases alike_iff.mp alike with ⟨_, roots⟩
    cases isRoot : first.root with
    | none =>
        cases isRoot' : second.root with
        | none =>
            rw [Dictionary.locate, Dictionary.locate, isRoot, isRoot']
            exact .error _
        | some root' => simp [isRoot, isRoot'] at roots
    | some root =>
        cases isRoot' : second.root with
        | none => simp [isRoot, isRoot'] at roots
        | some root' =>
            rw [isRoot, isRoot', Option.rel_some_some] at roots
            rw [locate_eq_answer_of_root isRoot, locate_eq_answer_of_root isRoot']
            apply Node.Alike.answer
            exact roots.steps _ _
  cases located : first.locate path with
  | error fault =>
      rw [found.eq_error located]
      exact .error fault
  | ok node =>
      rcases found.exists_ok located with ⟨other, located', alikeNodes⟩
      rw [located']
      apply Agree.ok
      exact ⟨alikeNodes, keysDistinct_of_locate located, keysDistinct_of_locate located'⟩

theorem rawText_eq (alike : first.Alike second) (path : String) :
    first.rawText path = second.rawText path := by
  apply Agree.eq
  apply (alike.locate path).bind
  rintro node other ⟨alikeNodes, _, _⟩
  cases alikeNodes with
  | value text => exact .ok rfl
  | object names below => dsimp only; split <;> exact .error _
  | array length below => dsimp only; split <;> exact .error _

theorem getWithin_eq (alike : first.Alike second) (levels : Nat) (path : String) :
    first.getWithin levels path = second.getWithin levels path := by
  have telling : Fault.Telling (id : Fault → Fault) :=
    fun _ _ same => congrArg Fault.isNotFound same
  rw [← mapError_id (first.getWithin levels path), ← mapError_id (second.getWithin levels path)]
  induction levels generalizing path with
  | zero =>
      apply mapError_getWith_congr telling alike.1
      · rw [alike.rawText_eq]
      · intro next _
        rfl
  | succ levels ih =>
      apply mapError_getWith_congr telling alike.1
      · rw [alike.rawText_eq]
      · intro next _
        exact ih next

theorem get_eq (alike : first.Alike second) (path : String) : first.get path = second.get path :=
  alike.getWithin_eq nestingLimit path

theorem has_eq (alike : first.Alike second) (path : String) : first.has path = second.has path := by
  have found := alike.locate path
  rw [has, has]
  generalize first.locate path = result, second.locate path = result' at found ⊢
  cases found <;> rfl

theorem keys_agree (alike : first.Alike second) (path : String) :
    Agree List.Perm (first.keys path) (second.keys path) := by
  apply (alike.locate path).bind
  rintro node other ⟨alikeNodes, distinct, distinct'⟩
  cases alikeNodes with
  | value text => exact .error _
  | array length below => exact .error _
  | object names below =>
      apply Agree.ok
      exact (Node.Alike.object names below).keys_perm distinct distinct'

theorem size_eq (alike : first.Alike second) (path : String) :
    first.size path = second.size path := by
  apply Agree.eq
  apply (alike.locate path).bind
  rintro node other ⟨alikeNodes, distinct, distinct'⟩
  cases alikeNodes with
  | value text => exact .error _
  | array length below => exact .ok length
  | object names below =>
      apply Agree.ok
      have sameNames := (Node.Alike.object names below).keys_perm distinct distinct'
      simpa [Fields.keys] using sameNames.length_eq

theorem sub_agree (alike : first.Alike second) (path : String) :
    Agree Alike (first.sub path) (second.sub path) := by
  have found := alike.locate path
  cases located : first.locate path with
  | error fault =>
      rw [sub_eq_error located, sub_eq_error (found.eq_error located)]
      exact .error fault
  | ok node =>
      rcases found.exists_ok located with ⟨other, located', alikeNodes, _⟩
      rcases exists_sub_eq_ok located with ⟨part, isPart, root, policy⟩
      rcases exists_sub_eq_ok located' with ⟨part', isPart', root', policy'⟩
      rw [isPart, isPart']
      apply Agree.ok
      rw [alike_iff, root, root', Option.rel_some_some]
      exact ⟨(policy.trans alike.1).trans policy'.symm, alikeNodes⟩

theorem write_agree (alike : first.Alike second) (path : String) (leaf : Option String) :
    Agree Alike (first.write path leaf) (second.write path leaf) := by
  rw [write_eq, write_eq]
  cases Path.tokenize path with
  | error fault => exact .error fault
  | ok segments =>
      rcases alike_iff.mp alike with ⟨policy, roots⟩
      have allowed := Node.writableKeys_alike roots [] segments
      simp only [Except.bind, allowed]
      cases Node.writableKeys [] second.root segments with
      | error refusal => exact .error _
      | ok keys =>
          apply Agree.ok
          exact alike_iff.mpr ⟨policy, .some (Node.put_alike leaf roots keys)⟩

open KeyValue in
theorem writeAll_agree (alike : first.Alike second) (ending : Option Fault) (written : Nat)
    (entries : List Entry) :
    (writeAll ending written first entries).1 = (writeAll ending written second entries).1 ∧
      (writeAll ending written first entries).2.Alike
        (writeAll ending written second entries).2 := by
  induction entries generalizing first second written with
  | nil => cases ending <;> exact ⟨rfl, alike⟩
  | cons entry rest ih =>
      have wrote : Agree Alike (entry.writeTo first) (entry.writeTo second) := by
        have set := alike.write_agree entry.key (some entry.value)
        rw [Entry.writeTo, Entry.writeTo, Dictionary.set, Dictionary.set]
        generalize first.write entry.key (some entry.value) = result,
          second.write entry.key (some entry.value) = result' at set ⊢
        cases set with
        | error refusal => exact .error _
        | ok after => exact .ok after
      rw [writeAll, writeAll]
      generalize entry.writeTo first = result, entry.writeTo second = result' at wrote ⊢
      cases wrote with
      | error fault => exact ⟨rfl, alike⟩
      | ok after => exact ih after (written + 1)

open KeyValue in
theorem loadInto_agree (alike : first.Alike second) (options : Options) (text : String) :
    (loadInto options text first).1 = (loadInto options text second).1 ∧
      (loadInto options text first).2.Alike (loadInto options text second).2 := by
  cases accepted : options.validate with
  | error fault =>
      rw [loadInto, loadInto, accepted]
      exact ⟨rfl, alike⟩
  | ok _ =>
      rw [loadInto_eq_writeOnto accepted, loadInto_eq_writeOnto accepted]
      exact alike.writeAll_agree _ 0 _

end Alike

/-- What the calls at a path have in common in two dictionaries. -/
structure AnswersAlike (first second : Dictionary) (path : String) : Prop where
  get : first.get path = second.get path
  getOr : ∀ default, first.getOr path default = second.getOr path default
  getAs : ∀ {α : Type} (conversion : Conversion α),
    first.getAs conversion path = second.getAs conversion path
  getAsOr : ∀ {α : Type} (conversion : Conversion α) (default : α),
    first.getAsOr conversion path default = second.getAsOr conversion path default
  has : first.has path = second.has path
  size : first.size path = second.size path
  keys : Agree List.Perm (first.keys path) (second.keys path)
  sub : Agree Alike (first.sub path) (second.sub path)
  set : ∀ text, Agree Alike (first.set path text) (second.set path text)
  setNull : Agree Alike (first.setNull path) (second.setNull path)

theorem Alike.answersAlike {first second : Dictionary} (alike : first.Alike second)
    (path : String) : AnswersAlike first second path where
  get := alike.get_eq path
  getOr default := by rw [Dictionary.getOr, Dictionary.getOr, alike.get_eq]
  getAs conversion := by rw [Dictionary.getAs, Dictionary.getAs, alike.get_eq]
  getAsOr conversion default := by rw [Dictionary.getAsOr, Dictionary.getAsOr, alike.get_eq]
  has := alike.has_eq path
  size := alike.size_eq path
  keys := alike.keys_agree path
  sub := alike.sub_agree path
  set text := alike.write_agree path (some text)
  setNull := alike.write_agree path none

/-- Trees that the check finds the same are interchangeable in a dictionary: all calls answer
alike, and those that change the tree leave trees that are again the same. On trees without
repeated names the check is an equivalence. -/
theorem answersAlike_of_same :
    (Equivalence fun first second : { node : Node // node.KeysDistinct } =>
      first.1.same second.1 = true) ∧
    ∀ first second : Dictionary, first.SamePolicy second →
      Option.Rel (fun root root' => root.same root' = true) first.root second.root →
      (∀ path, AnswersAlike first second path) ∧
      ∀ (options : KeyValue.Options) (text : String),
        (KeyValue.loadInto options text first).1 = (KeyValue.loadInto options text second).1 ∧
          (KeyValue.loadInto options text first).2.Alike
            (KeyValue.loadInto options text second).2 := by
  refine ⟨Node.same_equivalence, ?_⟩
  intro first second policy roots
  have alike : first.Alike second := ⟨policy, roots⟩
  refine ⟨alike.answersAlike, ?_⟩
  intro options text
  exact alike.loadInto_agree options text

/-- A reference is followed into a tree whose fields stand the other way round. -/
theorem answersAlike_of_same_reversed :
    ∃ first second : Dictionary, first.substitutesConfiguration = true ∧
      first.root = some (.object [("a", .ofText "${b[0].x}"),
        ("b", .array [.object [("x", .ofText "1"), ("y", .null)]])]) ∧
      second.root = some (.object [("b", .array [.object [("y", .null), ("x", .ofText "1")]]),
        ("a", .ofText "${b[0].x}")]) ∧
      first.get "a" = .ok (some "1") ∧ second.get "a" = .ok (some "1") ∧
      first.keys "b[0]" = .ok ["x", "y"] ∧ second.keys "b[0]" = .ok ["y", "x"] := by
  obtain ⟨first, isFirst⟩ : ∃ dictionary : Dictionary, dictionary =
      { ofNode (.object [("a", .ofText "${b[0].x}"),
        ("b", .array [.object [("x", .ofText "1"), ("y", .null)]])]) with
        substitutesConfiguration := true } := ⟨_, rfl⟩
  obtain ⟨second, isSecond⟩ : ∃ dictionary : Dictionary, dictionary =
      { ofNode (.object [("b", .array [.object [("y", .null), ("x", .ofText "1")]]),
        ("a", .ofText "${b[0].x}")]) with
        substitutesConfiguration := true } := ⟨_, rfl⟩
  have policy : first.SamePolicy second := by
    rw [isFirst, isSecond]
    exact ⟨rfl, rfl, rfl⟩
  have roots : Option.Rel (fun root root' => root.same root' = true) first.root second.root := by
    rw [isFirst, isSecond]
    exact .some (by decide +kernel)
  have answers := (answersAlike_of_same.2 first second policy roots).1
  have found : first.get "a" = .ok (some "1") := by
    rw [isFirst]
    decide +kernel
  refine ⟨first, second, ?_, ?_, ?_, found, (answers "a").get ▸ found, ?_, ?_⟩
  · rw [isFirst]
  · rw [isFirst]
    rfl
  · rw [isSecond]
    rfl
  · rw [isFirst]
    decide +kernel
  · rw [isSecond]
    decide +kernel

end Dictionary

end ConfigTree
