import ConfigTree.Proofs.Dictionary.Comparison

/-!
# Parts of a dictionary

A part is the dictionary of what is found at a path. Going on from there is looking
up one longer path: what is asked of the part at a second path is answered by the
whole at both paths, joined by a dot, as long as the text that is found does not
refer to the tree. References to the tree are looked up from the root, and the part
has another root.
-/

namespace ConfigTree.Dictionary

variable {dictionary part : Dictionary} {path : String}

theorem exists_sub_eq_ok {node : Node} (located : dictionary.locate path = .ok node) :
    ∃ part, dictionary.sub path = .ok part ∧ part.root = some node ∧
      part.SamePolicy dictionary := by
  unfold sub
  split
  · next failed => cases located.symm.trans failed
  · next found =>
    cases located.symm.trans found
    exact ⟨_, rfl, rfl, rfl, rfl, rfl⟩

theorem sub_eq_error {fault : Fault} (failed : dictionary.locate path = .error fault) :
    dictionary.sub path = .error fault := by
  unfold sub
  split
  · next again =>
    cases again.symm.trans failed
    rfl
  · next located => cases failed.symm.trans located

theorem of_sub_eq_ok (taken : dictionary.sub path = .ok part) :
    ∃ node, dictionary.locate path = .ok node ∧ part.root = some node ∧
      part.SamePolicy dictionary := by
  cases located : dictionary.locate path with
  | error fault => cases (sub_eq_error located).symm.trans taken
  | ok node =>
      rcases exists_sub_eq_ok located with ⟨own, isPart, root, policy⟩
      cases isPart.symm.trans taken
      exact ⟨node, rfl, root, policy⟩

theorem of_sub_eq_error {fault : Fault} (failed : dictionary.sub path = .error fault) :
    dictionary.locate path = .error fault := by
  cases located : dictionary.locate path with
  | error own =>
      have same : (.error own : Except Fault Dictionary) = .error fault :=
        (sub_eq_error located).symm.trans failed
      cases same
      rfl
  | ok node =>
      rcases exists_sub_eq_ok located with ⟨own, isPart, _⟩
      cases isPart.symm.trans failed

/-- What is found at a joined path is what is found at the second path from where the first one
leads. -/
theorem sort_locate_join (dictionary : Dictionary) (path behind : String) :
    (dictionary.locate (path ++ "." ++ behind)).mapError Fault.sort =
      ((dictionary.locate path).mapError Fault.sort).bind
        (·.along (Path.pieces behind.toList)) := by
  cases isRoot : dictionary.root with
  | none =>
      rw [sort_locate_of_empty isRoot, sort_locate_of_empty isRoot]
      rfl
  | some root =>
      have joined : (path ++ "." ++ behind).toList = path.toList ++ '.' :: behind.toList := by
        simp
      rw [sort_locate isRoot, sort_locate isRoot, joined, Path.pieces_append_dot,
        Node.along_append]

theorem sort_locate_of_part (taken : dictionary.sub path = .ok part) (behind : String) :
    (part.locate behind).mapError Fault.sort =
      (dictionary.locate (path ++ "." ++ behind)).mapError Fault.sort := by
  rcases of_sub_eq_ok taken with ⟨node, located, partRoot, _⟩
  rw [sort_locate_join, located, sort_locate partRoot]
  rfl

/-- Where there is no part, the whole has nothing at any joined path. -/
theorem locate_join_eq_error {fault : Fault} (failed : dictionary.sub path = .error fault)
    (behind : String) :
    ∃ fault', dictionary.locate (path ++ "." ++ behind) = .error fault' ∧
      fault.sort = fault'.sort := by
  have joined := sort_locate_join dictionary path behind
  rw [of_sub_eq_error failed] at joined
  cases located : dictionary.locate (path ++ "." ++ behind) with
  | error fault' =>
      rw [located] at joined
      exact ⟨fault', rfl, (Except.error.inj joined).symm⟩
  | ok node =>
      rw [located] at joined
      cases joined

theorem get_eq_error_of_locate {fault : Fault} (failed : dictionary.locate path = .error fault) :
    dictionary.get path = .error fault := by
  have own : dictionary.rawText path = .error fault := by
    simp [rawText, failed, bind, Except.bind]
  simp [get, nestingLimit, getWithin, getWith, own, bind, Except.bind]

/-- Where references are not looked up in the tree, a lookup does not depend on where the root
is. -/
theorem sortOfLookup_get_congr {first second : Dictionary} {path' : String}
    (silent : first.substitutesConfiguration = false) (policy : first.SamePolicy second)
    (found : (first.locate path).mapError Fault.sort =
      (second.locate path').mapError Fault.sort) :
    (first.get path).mapError Fault.sortOfLookup =
      (second.get path').mapError Fault.sortOfLookup := by
  apply mapError_getWith_congr Fault.telling_sortOfLookup policy
  · exact sortOfLookup_rawText_congr found
  · rintro next ⟨_, _, _, _, _, followed⟩
    cases silent.symm.trans followed.2.1

/-- Asking a part at a path is asking the whole at the joined path. If there is no part, that is the
fault of both. -/
theorem sub_bind_eq_join (dictionary : Dictionary) (path behind : String) :
    (dictionary.substitutesConfiguration = false →
      (do (← dictionary.sub path).get behind).mapError Fault.sortOfLookup =
        (dictionary.get (path ++ "." ++ behind)).mapError Fault.sortOfLookup) ∧
    (do (← dictionary.sub path).keys behind).mapError Fault.sort =
      (dictionary.keys (path ++ "." ++ behind)).mapError Fault.sort ∧
    (do (← dictionary.sub path).size behind).mapError Fault.sort =
      (dictionary.size (path ++ "." ++ behind)).mapError Fault.sort ∧
    ((∃ part, dictionary.sub path = .ok part ∧ part.has behind = true) ↔
      dictionary.has (path ++ "." ++ behind) = true) := by
  cases taken : dictionary.sub path with
  | error fault =>
      rcases locate_join_eq_error taken behind with ⟨fault', failed, same⟩
      refine ⟨?_, ?_, ?_, ?_⟩
      · intro _
        rw [get_eq_error_of_locate failed]
        exact congrArg Except.error (Fault.sortOfLookup_eq_of_sort same)
      · rw [keys, failed]
        exact congrArg Except.error same
      · rw [size, failed]
        exact congrArg Except.error same
      · rw [has, failed]
        simp [Except.isOk, Except.toBool]
  | ok part =>
      have found := sort_locate_of_part taken behind
      rcases of_sub_eq_ok taken with ⟨_, _, _, policy⟩
      refine ⟨?_, sort_keys_congr found, sort_size_congr found, ?_⟩
      · intro silent
        exact sortOfLookup_get_congr (policy.2.1.trans silent) policy found
      · simp [has_congr found]

/-- A part keeps asking the environment, so its answer is the answer of the whole. -/
theorem sub_bind_eq_join_environment :
    ∃ dictionary : Dictionary, dictionary.substitutesEnvironment = true ∧
      dictionary.substitutesConfiguration = false ∧
      dictionary.root = some (.object [("m", .array [.object [("a", .ofText "${HOME}/x")]])]) ∧
      (do (← dictionary.sub " m").get ".[0].a") = .ok (some "1/x") ∧
      dictionary.get (" m" ++ "." ++ ".[0].a") = .ok (some "1/x") := by
  refine ⟨{ ofNode (.object [("m", .array [.object [("a", .ofText "${HOME}/x")]])]) with
    substitutesEnvironment := true, environment := .ofTable [("HOME", "1")] },
    rfl, rfl, rfl, ?_⟩
  generalize isWhole : ({ ofNode (.object [("m", .array [.object [("a", .ofText "${HOME}/x")]])])
    with substitutesEnvironment := true, environment := .ofTable [("HOME", "1")] } :
      Dictionary) = whole
  have ofPart : (do (← whole.sub " m").get ".[0].a") = .ok (some "1/x") := by
    rw [← isWhole]
    decide +kernel
  have silent : whole.substitutesConfiguration = false := by rw [← isWhole]; rfl
  have joined := (sub_bind_eq_join whole " m" ".[0].a").1 silent
  rw [ofPart] at joined
  rcases mapError_eq_mapError_iff.mp joined with ⟨text, same, answer⟩ | ⟨_, _, impossible, _⟩
  · cases same
    exact ⟨ofPart, answer⟩
  · cases impossible

end ConfigTree.Dictionary
