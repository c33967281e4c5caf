import ConfigTree.Proofs.Dictionary.LastWrite
import ConfigTree.Proofs.Dictionary.Part
import ConfigTree.Proofs.Path.Render

/-!
# Looking around in a dictionary

Each of the calls that inspect a dictionary finds a node first and then asks what kind
of node it is, so they tell the same of every path. A child is found at the path of its
node, a dot, and its own name or its position in brackets: finding it is one more step
from where the path leads, and the step succeeds for the names that are listed and for
the positions below the number of elements.
-/

namespace ConfigTree.Dictionary

variable {dictionary : Dictionary} {path : String} {node : Node} {segments : List Segment}

/-- A path at which a node is found can be read. -/
theorem exists_tokenize_of_locate (located : dictionary.locate path = .ok node) :
    ∃ segments, Path.tokenize path = .ok segments := by
  cases isRoot : dictionary.root with
  | none => simp [locate, isRoot] at located
  | some root =>
      rcases read : Path.readPieces (Path.pieces path.toList) with ⟨segments, ending⟩
      rw [locate_eq_answer_of_root isRoot, read] at located
      cases ending with
      | none => exact ⟨segments, Path.tokenize_eq_ok_iff.mpr read⟩
      | some bad =>
          cases stepped : root.steps [] segments <;> simp [stepped, Node.answer] at located

/-- The path of a child leads one step further than the path of its node. -/
theorem locate_child {last : String} {segment : Segment}
    (located : dictionary.locate path = .ok node) (whole : Path.tokenize path = .ok segments)
    (read : Path.tokenize last = .ok [segment]) :
    dictionary.locate (path ++ "." ++ last) =
      (node.step segment).mapError (·.fault (path ++ "." ++ last) segments) := by
  rw [Path.tokenize_eq_ok_iff] at whole read
  cases isRoot : dictionary.root with
  | none => simp [locate, isRoot] at located
  | some root =>
      have stepped : root.steps [] segments = .ok node := by
        rw [locate_eq_answer_of_root isRoot, whole] at located
        cases reached : root.steps [] segments with
        | error stopped => simp [reached, Node.answer] at located
        | ok found => simpa [reached, Node.answer] using located
      have joined : (path ++ "." ++ last).toList = path.toList ++ '.' :: last.toList := by simp
      rw [locate_eq_answer_of_root isRoot, joined, Path.pieces_append_dot,
        Path.readPieces_append, whole, read]
      dsimp only
      rw [Node.steps_append stepped, Node.steps]
      cases node.step segment <;> rfl

theorem has_child_iff {last : String} {segment : Segment}
    (located : dictionary.locate path = .ok node)
    (read : Path.tokenize last = .ok [segment]) :
    dictionary.has (path ++ "." ++ last) = true ↔ ∃ child, node.step segment = .ok child := by
  rcases exists_tokenize_of_locate located with ⟨segments, whole⟩
  rw [has, locate_child located whole read]
  cases node.step segment <;> simp [Except.isOk, Except.toBool]

theorem of_keys_eq_ok {names : List String} (listed : dictionary.keys path = .ok names) :
    ∃ fields, dictionary.locate path = .ok (.object fields) ∧ names = Fields.keys fields := by
  rw [keys] at listed
  cases located : dictionary.locate path with
  | error fault =>
      rw [located] at listed
      cases listed
  | ok node =>
      rw [located] at listed
      cases node with
      | value text => cases listed
      | array items => cases listed
      | object fields =>
          cases listed
          exact ⟨fields, rfl, rfl⟩

/-- What has a size and no names is an array. -/
theorem of_size_eq_ok {size : Nat} {fault : Fault} (sized : dictionary.size path = .ok size)
    (unlisted : dictionary.keys path = .error fault) :
    ∃ items, dictionary.locate path = .ok (.array items) ∧ size = items.length := by
  rw [Dictionary.size] at sized
  rw [keys] at unlisted
  cases located : dictionary.locate path with
  | error fault =>
      rw [located] at sized
      cases sized
  | ok node =>
      rw [located] at sized unlisted
      cases node with
      | value text => cases sized
      | object fields => cases unlisted
      | array items =>
          cases sized
          exact ⟨items, rfl, rfl⟩

theorem has_eq_isOk_sub (dictionary : Dictionary) (path : String) :
    dictionary.has path = (dictionary.sub path).isOk := by
  rw [has]
  cases located : dictionary.locate path with
  | error fault => rw [sub_eq_error located]; rfl
  | ok node =>
      rcases exists_sub_eq_ok located with ⟨part, isPart, _⟩
      rw [isPart]
      rfl

/-- Of everything that is found, either the text or the size can be asked. -/
theorem Plain.has_eq_xor (plain : dictionary.Plain) (path : String) :
    dictionary.has path =
      Bool.xor (dictionary.get path).isOk (dictionary.size path).isOk := by
  rw [plain.get_eq_rawText, has, rawText, size]
  cases dictionary.locate path with
  | error fault => rfl
  | ok node =>
      cases node with
      | value text => rfl
      | object fields => dsimp only [bind, Except.bind]; split <;> rfl
      | array items => dsimp only [bind, Except.bind]; split <;> rfl

theorem has_name_iff {fields : List (String × Node)} {name : String}
    (located : dictionary.locate path = .ok (.object fields))
    (ownName : Path.tokenize name = .ok [.key name]) :
    dictionary.has (path ++ "." ++ name) = true ↔ name ∈ Fields.keys fields := by
  rw [has_child_iff located ownName, Fields.mem_keys_iff]
  cases found : Fields.get? fields name <;> simp [Node.step, found]

theorem has_position_iff {items : List Node} {position : Nat}
    (located : dictionary.locate path = .ok (.array items)) (small : position < UInt64.size) :
    dictionary.has (path ++ "." ++ s!"[{position}]") = true ↔ position < items.length := by
  have read : Path.tokenize s!"[{position}]" = .ok [.index position] :=
    Path.tokenize_text_index small
  rw [has_child_iff located read, Node.step]
  cases found : items[position]? with
  | none => simpa using List.getElem?_eq_none_iff.mp found
  | some child => simpa using (List.getElem?_eq_some_iff.mp found).1

/-- The calls that inspect a dictionary tell the same. What is there can be taken as a part, and it
has either a text or a size. The names of an object are distinct, as many as its size says, and
those under which a child is there. The size of an array is the number of positions at which an
element is there, and a position behind them is out of bounds. -/
theorem inspections_agree (plain : dictionary.Plain) (path : String) :
    dictionary.has path = (dictionary.sub path).isOk ∧
    dictionary.has path =
      Bool.xor (dictionary.get path).isOk (dictionary.size path).isOk ∧
    (∀ names, dictionary.keys path = .ok names →
      names.Nodup ∧ dictionary.size path = .ok names.length ∧
      ∀ name, Path.tokenize name = .ok [.key name] →
        (dictionary.has (path ++ "." ++ name) = true ↔ name ∈ names)) ∧
    ∀ size fault, dictionary.size path = .ok size → dictionary.keys path = .error fault →
      ∃ segments, Path.tokenize path = .ok segments ∧
        ∀ position < UInt64.size,
          (dictionary.has (path ++ "." ++ s!"[{position}]") = true ↔ position < size) ∧
          (size ≤ position → dictionary.get (path ++ "." ++ s!"[{position}]") = .error
            { kind := .outOfBounds (path ++ "." ++ s!"[{position}]") (Path.renderPlace segments)
                position size
              code := some 304 }) := by
  refine ⟨dictionary.has_eq_isOk_sub path, plain.has_eq_xor path, ?_, ?_⟩
  · intro names listed
    rcases of_keys_eq_ok listed with ⟨fields, located, rfl⟩
    refine ⟨?_, ?_, ?_⟩
    · cases keysDistinct_of_locate located with
      | object distinct below => exact distinct
    · rw [size, located]
      exact congrArg Except.ok (List.length_map _).symm
    · intro name ownName
      exact has_name_iff located ownName
  · intro size fault sized unlisted
    rcases of_size_eq_ok sized unlisted with ⟨items, located, rfl⟩
    rcases exists_tokenize_of_locate located with ⟨segments, whole⟩
    refine ⟨segments, whole, ?_⟩
    intro position small
    refine ⟨has_position_iff located small, ?_⟩
    intro beyond
    have read : Path.tokenize s!"[{position}]" = .ok [.index position] :=
      Path.tokenize_text_index small
    apply get_eq_error_of_locate
    rw [locate_child located whole read, Node.step, List.getElem?_eq_none beyond]
    rfl

/-- In an object of an object and a list, the list has two elements, and there is no third one. -/
theorem inspections_agree_list :
    ∃ dictionary : Dictionary, dictionary.Plain ∧
      dictionary.root = some (.object [("a [", .array [.ofText "1", .null]), ("b", .object [])]) ∧
      dictionary.keys "." = .ok ["a [", "b"] ∧
      dictionary.has ("." ++ "." ++ "a [") = true ∧
      dictionary.size "a [" = .ok 2 ∧
      dictionary.has ("a [" ++ "." ++ s!"[{1}]") = true ∧
      dictionary.get ("a [" ++ "." ++ s!"[{2}]") = .error
        { kind := .outOfBounds "a [.[2]" "a [" 2 2, code := some 304 } := by
  refine ⟨ofNode (.object [("a [", .array [.ofText "1", .null]), ("b", .object [])]),
    ⟨rfl, rfl⟩, rfl, ?_⟩
  generalize isDictionary :
    ofNode (.object [("a [", .array [.ofText "1", .null]), ("b", .object [])]) = dictionary
  have plain : dictionary.Plain := by
    rw [← isDictionary]
    exact ⟨rfl, rfl⟩
  have listed : dictionary.keys "." = .ok ["a [", "b"] := by
    rw [← isDictionary]
    decide +kernel
  have sized : dictionary.size "a [" = .ok 2 := by
    rw [← isDictionary]
    decide +kernel
  have unlisted : dictionary.keys "a [" = .error
      { kind := .typeMismatch "a [" "Object expected but array found"
        hint := some "Only objects have keys"
        code := some 309 } := by
    rw [← isDictionary]
    decide +kernel
  rcases (inspections_agree plain ".").2.2.1 _ listed with ⟨_, _, names⟩
  rcases (inspections_agree plain "a [").2.2.2 2 _ sized unlisted with
    ⟨segments, read, positions⟩
  have ownName : Path.tokenize "a [" = .ok [.key "a ["] := by decide
  cases read.symm.trans ownName
  have isThere := (positions 1 (by decide)).1.mpr (by decide)
  have isBehind := (positions 2 (by decide)).2 (by decide)
  exact ⟨listed, (names "a [" ownName).mpr (by simp), sized, isThere, isBehind⟩

end ConfigTree.Dictionary
