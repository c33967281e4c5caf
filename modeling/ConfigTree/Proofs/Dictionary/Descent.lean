import ConfigTree.Proofs.Dictionary.Locate
import ConfigTree.Proofs.Node.Leads
import ConfigTree.Proofs.Path.Reads

/-!
# Reading a path while walking down

A walk reads one segment, takes one step, and reads on; what has been read so far
tells where an obstacle stands. This comes to reading first and walking afterwards:
all pieces in front of the first malformed one are read, then the tree is walked down
along their segments. The first step that cannot be taken decides, behind it the
malformed piece, and only where there is neither is a node found.

The place of an obstacle is the text of the segments taken before it. This text is
empty for the root alone, because no segment of a path has an empty text.
-/

namespace ConfigTree

namespace Node

variable {root node : Node} {taken segments : List Segment} {path : String} {fault : Fault}

/-- A step cannot be taken from a node, and what the fault is if the node is found at a place. -/
inductive Blocks (path place : String) : Node → Segment → Fault → Prop where
  | missingKey {fields : List (String × Node)} {name : String}
      (absent : name ∉ Fields.keys fields) :
      Blocks path place (.object fields) (.key name)
        { kind := .notFound path place
          hint := some s!"No key '{name}' here"
          code := some 301 }
  | keyOfValue {text : Option String} {name : String} :
      Blocks path place (.value text) (.key name)
        { kind := .notFound path place
          hint := some s!"'{place}' is a value and has no property '{name}'"
          code := some 303 }
  | beyondEnd {items : List Node} {position : Nat} (beyond : items.length ≤ position) :
      Blocks path place (.array items) (.index position)
        { kind := .outOfBounds path place position items.length
          code := some 304 }
  | indexOfOther {node : Node} {position : Nat} (noArray : ∀ items, node ≠ .array items) :
      Blocks path place node (.index position)
        { kind := .typeMismatch path
            s!"Cannot apply index [{position}] to the {node.kindName} at '{place}'"
          hint := some "Only arrays can be indexed"
          code := some 305 }
  | keyOfArray {items : List Node} {name : String} :
      Blocks path place (.array items) (.key name)
        { kind := .typeMismatch path
            s!"Cannot look up property '{name}' in the array at '{place}'"
          hint := some "Use [index] to address array elements"
          code := some 306 }

theorem blocks_iff {segment : Segment} :
    node.Blocks path (Path.renderPlace taken) segment fault ↔
      ∃ obstacle, node.step segment = .error obstacle ∧ fault = obstacle.fault path taken := by
  constructor
  · intro blocks
    cases blocks with
    | @missingKey fields name absent =>
        have notFound : Fields.get? fields name = none := by
          rw [← Option.not_isSome_iff_eq_none, Option.isSome_iff_exists]
          exact fun found => absent (Fields.mem_keys_iff.mpr found)
        exact ⟨.missingKey name, by simp [step, notFound], rfl⟩
    | keyOfValue => exact ⟨.keyOfValue _, rfl, rfl⟩
    | @beyondEnd items position beyond =>
        exact ⟨.beyondEnd position items.length, by simp [step, beyond], rfl⟩
    | @indexOfOther node position noArray =>
        refine ⟨.indexOfOther position node.kindName, ?_, rfl⟩
        cases node with
        | array items => exact absurd rfl (noArray items)
        | _ => rfl
    | keyOfArray => exact ⟨.keyOfArray _, rfl, rfl⟩
  · rintro ⟨obstacle, blocked, rfl⟩
    cases node with
    | value text =>
        cases segment with
        | key name =>
            cases blocked
            exact .keyOfValue
        | index position =>
            cases blocked
            exact .indexOfOther (by simp)
    | object fields =>
        cases segment with
        | key name =>
            rw [step] at blocked
            split at blocked
            · cases blocked
            · next notFound =>
              cases blocked
              apply Blocks.missingKey
              rw [Fields.mem_keys_iff, notFound]
              simp
        | index position =>
            cases blocked
            exact .indexOfOther (by simp)
    | array items =>
        cases segment with
        | key name =>
            cases blocked
            exact .keyOfArray
        | index position =>
            rw [step] at blocked
            split at blocked
            · cases blocked
            · next beyond =>
              cases blocked
              exact .beyondEnd (List.getElem?_eq_none_iff.mp beyond)

theorem steps_eq_ok_iff : root.steps taken segments = .ok node ↔ root.Leads segments node := by
  rw [leads_iff_reach, ← steps_eq_reach taken]
  cases root.steps taken segments <;> simp

/-- Stepping down stops at the first step that cannot be taken. -/
theorem steps_eq_error_iff {stop : List Segment} {obstacle : Obstacle} :
    root.steps taken segments = .error (stop, obstacle) ↔
      ∃ before segment behind node, segments = before ++ segment :: behind ∧
        root.Leads before node ∧ node.step segment = .error obstacle ∧ stop = taken ++ before := by
  induction segments generalizing root taken with
  | nil => simp [steps]
  | cons segment rest ih =>
      rw [steps]
      cases stepped : root.step segment with
      | error own =>
          constructor
          · rintro ⟨⟩
            exact ⟨[], segment, rest, root, rfl, .here, stepped, by simp⟩
          · rintro ⟨before, last, behind, node, split, leads, blocked, rfl⟩
            cases before with
            | nil =>
                cases leads
                cases split
                cases stepped.symm.trans blocked
                simp
            | cons first more =>
                cases split
                rcases leads_cons_iff.mp leads with ⟨child, passed, _⟩
                cases stepped.symm.trans passed
      | ok child =>
          dsimp only
          rw [ih]
          constructor
          · rintro ⟨before, last, behind, node, rfl, leads, blocked, rfl⟩
            exact ⟨segment :: before, last, behind, node, rfl,
              leads_cons_iff.mpr ⟨child, stepped, leads⟩, blocked, by simp⟩
          · rintro ⟨before, last, behind, node, split, leads, blocked, rfl⟩
            cases before with
            | nil =>
                cases leads
                cases split
                cases stepped.symm.trans blocked
            | cons first more =>
                cases split
                rcases leads_cons_iff.mp leads with ⟨own, passed, deeper⟩
                cases stepped.symm.trans passed
                exact ⟨more, last, behind, node, rfl, deeper, blocked, by simp⟩

theorem exists_steps_eq_error_iff :
    (∃ stop obstacle, root.steps [] segments = .error (stop, obstacle) ∧
      fault = obstacle.fault path stop) ↔
      ∃ before segment behind node, segments = before ++ segment :: behind ∧
        root.Leads before node ∧ node.Blocks path (Path.renderPlace before) segment fault := by
  constructor
  · rintro ⟨before, obstacle, stopped, rfl⟩
    rcases steps_eq_error_iff.mp stopped with
      ⟨_, segment, behind, node, split, leads, blocked, rfl⟩
    exact ⟨_, segment, behind, node, split, leads, blocks_iff.mpr ⟨obstacle, blocked, rfl⟩⟩
  · rintro ⟨before, segment, behind, node, split, leads, blocks⟩
    rcases blocks_iff.mp blocks with ⟨obstacle, blocked, rfl⟩
    refine ⟨before, obstacle, steps_eq_error_iff.mpr ?_, rfl⟩
    exact ⟨before, segment, behind, node, split, leads, blocked, rfl⟩

theorem answer_eq_ok_iff {ending : Option BadBracket} :
    answer path ending (root.steps [] segments) = .ok node ↔
      ending = none ∧ root.Leads segments node := by
  have leads : root.steps [] segments = .ok node ↔ root.Leads segments node := steps_eq_ok_iff
  rw [← leads]
  cases root.steps [] segments with
  | error stopped => simp [answer]
  | ok found => cases ending <;> simp [answer]

/-- An obstacle on the way comes before the malformed piece. -/
theorem answer_eq_error_iff {ending : Option BadBracket} :
    answer path ending (root.steps [] segments) = .error fault ↔
      (∃ before segment behind node, segments = before ++ segment :: behind ∧
        root.Leads before node ∧ node.Blocks path (Path.renderPlace before) segment fault) ∨
      ∃ node, root.Leads segments node ∧ ending.map (·.fault path) = some fault := by
  have leads : ∀ node, root.steps [] segments = .ok node ↔ root.Leads segments node :=
    fun node => steps_eq_ok_iff
  rw [← exists_steps_eq_error_iff]
  simp only [← leads]
  cases root.steps [] segments with
  | error stopped =>
      rcases stopped with ⟨stop, obstacle⟩
      simp [answer, eq_comm]
  | ok found => cases ending <;> simp [answer]

end Node

namespace Dictionary

variable {dictionary : Dictionary} {path : String} {segments : List Segment}
  {fault? : Option Fault}

theorem locate_eq_ok_iff_of_reads (reads : Path.Reads path segments fault?) {node : Node} :
    dictionary.locate path = .ok node ↔
      fault? = none ∧ Node.LeadsFrom dictionary.root segments node := by
  cases isRoot : dictionary.root with
  | none => simp [locate, isRoot, Node.LeadsFrom]
  | some root =>
      rcases reads.exists_readPieces with ⟨ending, read, rfl⟩
      rw [locate_eq_answer_of_root isRoot, read, Node.answer_eq_ok_iff]
      simp [Node.LeadsFrom]

/-- A node is found by reading the path up to its first malformed piece and walking down along the
segments. What is met first is the fault: there is no tree, a step cannot be taken, or the path
cannot be read further. -/
theorem locate_iff_of_reading_first (dictionary : Dictionary) (path : String) :
    (∀ root, dictionary.root = some root → root.locate path = dictionary.locate path) ∧
    ∃ segments syntaxFault, Path.Reads path segments syntaxFault ∧
      Path.tokenize path = syntaxFault.elim (.ok segments) .error ∧
      (∀ node, dictionary.locate path = .ok node ↔
        syntaxFault = none ∧ Node.LeadsFrom dictionary.root segments node) ∧
      ∀ fault, dictionary.locate path = .error fault ↔
        (dictionary.root = none ∧ fault =
          { kind := .notFound path "<root>"
            hint := some "The dictionary is empty"
            code := some 302 }) ∨
        (∃ taken segment rest node, segments = taken ++ segment :: rest ∧
          Node.LeadsFrom dictionary.root taken node ∧
          node.Blocks path (if taken = [] then "<root>" else Path.render taken) segment fault) ∨
        (∃ node, Node.LeadsFrom dictionary.root segments node ∧ syntaxFault = some fault) := by
  rcases read : Path.readPieces (Path.pieces path.toList) with ⟨segments, ending⟩
  have handed : Path.HandedOut segments := by
    have all := @Path.handedOut_of_readPieces path.toList (Path.pieces path.toList) fun _ mem => mem
    rwa [read] at all
  have reads := Path.reads_of_readPieces read
  refine ⟨?_, segments, ending.map (·.fault path), reads, reads.tokenize_eq, ?_, ?_⟩
  · intro root isRoot
    rw [locate_eq_answer_of_root isRoot, root.locate_eq_answer]
  · intro node
    exact locate_eq_ok_iff_of_reads reads
  · intro fault
    cases isRoot : dictionary.root with
    | none => simp [locate, isRoot, emptyFault, Node.LeadsFrom, eq_comm]
    | some root =>
        rw [locate_eq_answer_of_root isRoot, read, Node.answer_eq_error_iff]
        simp only [reduceCtorEq, false_and, false_or, Node.LeadsFrom, Option.some.injEq,
          exists_eq_left']
        apply or_congr_left
        constructor
        · rintro ⟨taken, segment, rest, node, rfl, leads, blocks⟩
          rw [Path.renderPlace_eq handed] at blocks
          exact ⟨taken, segment, rest, node, rfl, leads, blocks⟩
        · rintro ⟨taken, segment, rest, node, rfl, leads, blocks⟩
          rw [← Path.renderPlace_eq handed] at blocks
          exact ⟨taken, segment, rest, node, rfl, leads, blocks⟩

end Dictionary

end ConfigTree
