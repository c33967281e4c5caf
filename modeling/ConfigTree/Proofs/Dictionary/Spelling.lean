import ConfigTree.Conversion
import ConfigTree.Proofs.Dictionary.Part
import ConfigTree.Proofs.Path.Render

/-!
# Spellings of a path

Every lookup depends on the segments of its path only; its spelling shows in what a
fault quotes. Rendering the segments gives another spelling of the path, unless a
position runs together with what is in front of it, and then lookups at the rendered
path may lead elsewhere.
-/

namespace ConfigTree

@[simp]
theorem Fault.family_withPath (path : String) (fault : Fault) :
    (fault.withPath path).family = fault.family := by
  rcases fault with ⟨kind, hint, code⟩
  cases kind <;> rfl

@[simp]
theorem outcome_withPath {α : Type} (result : Except Fault α) (path : String) :
    outcome (result.mapError (·.withPath path)) = outcome result := by
  cases result <;> simp

/-- A default stands in for a fault or for none of its family. -/
theorem outcome_default_congr {α : Type} {fault fault' : Fault}
    (same : fault.family = fault'.family) (default : α) :
    outcome (if fault.isNotFound then .ok default else .error fault) =
      outcome (if fault'.isNotFound then .ok default else .error fault') := by
  rw [Fault.telling_family fault fault' same]
  split
  · rfl
  · rw [outcome_error, outcome_error, same]

namespace Dictionary

/-- All lookups at two paths come to the same, up to what a fault quotes. -/
structure SameLookups (dictionary : Dictionary) (path path' : String) : Prop where
  locate : outcome (dictionary.locate path) = outcome (dictionary.locate path')
  get : outcome (dictionary.get path) = outcome (dictionary.get path')
  getOr : ∀ default,
    outcome (dictionary.getOr path default) = outcome (dictionary.getOr path' default)
  getAs : ∀ {α : Type} (conversion : Conversion α),
    outcome (dictionary.getAs conversion path) = outcome (dictionary.getAs conversion path')
  getAsOr : ∀ {α : Type} (conversion : Conversion α) (default : α),
    outcome (dictionary.getAsOr conversion path default) =
      outcome (dictionary.getAsOr conversion path' default)
  has : dictionary.has path = dictionary.has path'
  keys : outcome (dictionary.keys path) = outcome (dictionary.keys path')
  size : outcome (dictionary.size path) = outcome (dictionary.size path')
  sub : outcome (dictionary.sub path) = outcome (dictionary.sub path')

variable {dictionary : Dictionary} {path path' : String}

theorem outcome_sub_congr (found : outcome (dictionary.locate path) =
    outcome (dictionary.locate path')) :
    outcome (dictionary.sub path) = outcome (dictionary.sub path') := by
  rcases mapError_eq_mapError_iff.mp found with
    ⟨node, located, located'⟩ | ⟨fault, fault', failed, failed', same⟩
  · rcases exists_sub_eq_ok located with ⟨part, isPart, root, policy⟩
    rcases exists_sub_eq_ok located' with ⟨part', isPart', root', policy'⟩
    rw [isPart, isPart', eq_of_root_eq (root.trans root'.symm) (policy.trans policy'.symm)]
  · rw [sub_eq_error failed, sub_eq_error failed']
    exact congrArg Except.error same

/-- Lookups do not tell two spellings of a path apart. -/
theorem sameLookups_of_readPieces
    (read : Path.readPieces (Path.pieces path.toList) =
      Path.readPieces (Path.pieces path'.toList)) : dictionary.SameLookups path path' := by
  have found := @sort_locate_congr dictionary path path' read
  have got : outcome (dictionary.get path) = outcome (dictionary.get path') := by
    apply mapError_getWith_congr Fault.telling_family (.refl dictionary)
    · apply mapError_congr (sortOfLookup_rawText_congr found)
      intro fault fault' same
      exact congrArg Prod.fst same
    · intro next _
      rfl
  refine ⟨outcome_congr_of_sort found, got, ?_, ?_, ?_, has_congr found,
    outcome_congr_of_sort (sort_keys_congr found), outcome_congr_of_sort (sort_size_congr found),
    outcome_sub_congr (outcome_congr_of_sort found)⟩
  · intro default
    rw [getOr, getOr]
    rcases mapError_eq_mapError_iff.mp got with
      ⟨text, isText, isText'⟩ | ⟨fault, fault', failed, failed', same⟩
    · rw [isText, isText']
    · rw [failed, failed']
      exact outcome_default_congr same (some default)
  · intro α conversion
    apply mapError_bind_congr got
    intro scalar _
    exact (outcome_withPath _ path).trans (outcome_withPath _ path').symm
  · intro α conversion default
    rw [getAsOr, getAsOr]
    rcases mapError_eq_mapError_iff.mp got with
      ⟨scalar, isScalar, isScalar'⟩ | ⟨fault, fault', failed, failed', same⟩
    · rw [isScalar, isScalar']
      exact (outcome_withPath _ path).trans (outcome_withPath _ path').symm
    · rw [failed, failed']
      exact outcome_default_congr same default

/-- The rendered segments of a path are the path again exactly if no position stands behind another
one or behind a name that begins with a bracket; then they lead where the path leads. -/
theorem render_comes_back_iff {path : String} {segments : List Segment}
    (read : Path.tokenize path = .ok segments) :
    (Path.tokenize (Path.render segments) = .ok segments ↔
      segments.IsChain Segment.Separates) ∧
    (segments.IsChain Segment.Separates →
      ∀ dictionary : Dictionary, dictionary.SameLookups (Path.render segments) path) := by
  have comesBack := Path.tokenize_render_iff (Path.handedOut_of_tokenize read)
  refine ⟨comesBack, ?_⟩
  intro apart dictionary
  apply sameLookups_of_readPieces
  rw [Path.tokenize_eq_ok_iff.mp read]
  exact Path.tokenize_eq_ok_iff.mp (comesBack.mpr apart)

/-- Blanks and dots are lost, but not the blank between a name and its position. -/
theorem render_comes_back_iff_blanks :
    ∃ dictionary : Dictionary,
      dictionary.root = some (.object [("a ", .array [.object [("b", .ofText "1")]])]) ∧
      Path.tokenize " a [00] .. b" = .ok [.key "a ", .index 0, .key "b"] ∧
      Path.render [.key "a ", .index 0, .key "b"] = "a [0].b" ∧
      Path.tokenize "a [0].b" = .ok [.key "a ", .index 0, .key "b"] ∧
      dictionary.get " a [00] .. b" = .ok (some "1") ∧
      dictionary.get "a [0].b" = .ok (some "1") := by
  refine ⟨ofNode (.object [("a ", .array [.object [("b", .ofText "1")]])]), rfl, ?_⟩
  generalize isDictionary : ofNode (.object [("a ", .array [.object [("b", .ofText "1")]])]) =
    dictionary
  have read : Path.tokenize " a [00] .. b" = .ok [.key "a ", .index 0, .key "b"] := by decide
  have rendered : Path.render [.key "a ", .index 0, .key "b"] = "a [0].b" := by decide
  have apart : [Segment.key "a ", .index 0, .key "b"].IsChain Segment.Separates := by
    simp [Segment.Separates]
  have found : dictionary.get " a [00] .. b" = .ok (some "1") := by
    rw [← isDictionary]
    decide +kernel
  have back := (render_comes_back_iff read).1.mpr apart
  have lookups := (render_comes_back_iff read).2 apart dictionary
  rw [rendered] at back lookups
  have same := lookups.get
  rw [found, outcome_ok, outcome_eq_ok_iff] at same
  exact ⟨read, rendered, back, found, same⟩

end Dictionary

end ConfigTree
