import ConfigTree.Proofs.Dictionary.Comparison
import ConfigTree.Proofs.Dictionary.LastWrite
import ConfigTree.Proofs.Node.Apart

/-!
# Lookups apart from a write

A lookup reads the text at its path and, behind the references in it, the texts at
further paths, and so on. A write whose keys part from all of these paths is not
seen by the lookup. What was missing stays missing, so defaults are taken where they
were taken before, although the write may have made objects next to such a place.
-/

namespace ConfigTree.Dictionary

variable {dictionary after : Dictionary} {write : Write} {path : String}

theorem outcome_locate (dictionary : Dictionary) (path : String) :
    outcome (dictionary.locate path) =
      (Node.reachFrom (Path.readPieces (Path.pieces path.toList)).1 dictionary.root).bind
        fun node =>
          match (Path.readPieces (Path.pieces path.toList)).2 with
          | none => .ok node
          | some _ => .error .pathSyntax := by
  have families : outcome (dictionary.locate path) =
      ((dictionary.locate path).mapError Fault.sort).mapError Prod.fst := by
    cases dictionary.locate path <;> rfl
  rw [families]
  cases isRoot : dictionary.root with
  | none =>
      rw [sort_locate_of_empty isRoot]
      rfl
  | some root =>
      rw [sort_locate isRoot, Node.along, Node.reachFrom]
      cases root.reach (Path.readPieces (Path.pieces path.toList)).1 with
      | error obstacle => cases obstacle <;> rfl
      | ok node =>
          cases (Path.readPieces (Path.pieces path.toList)).2 with
          | none => rfl
          | some bad => cases bad <;> rfl

theorem outcome_locate_of_partWays (applied : dictionary.apply write = .ok after)
    (apart : PartWays (Path.names write.path) (Path.leadingNames path)) :
    outcome (after.locate path) = outcome (dictionary.locate path) := by
  rcases of_apply_eq_ok applied with ⟨keys, rfl, writable, root, _⟩
  rw [outcome_locate, outcome_locate, root, Node.reachFrom_put_of_partWays _ writable apart]

theorem outcome_rawText_of_partWays (applied : dictionary.apply write = .ok after)
    (apart : PartWays (Path.names write.path) (Path.leadingNames path)) :
    outcome (dictionary.rawText path) = outcome (after.rawText path) := by
  rw [outcome_rawText, outcome_rawText, outcome_locate_of_partWays applied apart]

/-- However many levels of references are followed, a lookup whose paths all part from the keys of a
write does not see the write. -/
theorem outcome_getWithin_of_partWays (applied : dictionary.apply write = .ok after)
    (levels : Nat)
    (apart : ∀ place, Relation.ReflTransGen dictionary.Follows path place →
      PartWays (Path.names write.path) (Path.leadingNames place)) :
    outcome (dictionary.getWithin levels path) = outcome (after.getWithin levels path) := by
  have policy : dictionary.SamePolicy after := by
    rcases of_apply_eq_ok applied with ⟨_, _, _, _, same⟩
    exact same.symm
  induction levels generalizing path with
  | zero =>
      apply mapError_getWith_congr Fault.telling_family policy
      · exact outcome_rawText_of_partWays applied (apart path .refl)
      · intro next _
        rfl
  | succ levels ih =>
      apply mapError_getWith_congr Fault.telling_family policy
      · exact outcome_rawText_of_partWays applied (apart path .refl)
      · intro next follows
        apply ih
        intro place leads
        exact apart place (.head follows leads)

/-- A lookup comes to the same before and after a write, if the keys of the write part from the path
of the lookup and from all paths that it is led to by references in the tree before the write. -/
theorem get_of_write_apart (applied : dictionary.apply write = .ok after)
    (apart : ∀ place, Relation.ReflTransGen dictionary.Follows path place →
      PartWays (Path.names write.path) (Path.leadingNames place)) :
    outcome (after.get path) = outcome (dictionary.get path) :=
  (outcome_getWithin_of_partWays applied nestingLimit apart).symm

/-- A default is still taken when the object in which it was missing has been made. -/
theorem get_of_write_apart_missing :
    ∃ dictionary after : Dictionary,
      dictionary.root = some (.object [("a", .ofText "${b.x:none}")]) ∧
      dictionary.substitutesConfiguration = true ∧
      dictionary.apply ⟨"b.y", some "1"⟩ = .ok after ∧
      (∀ place, Relation.ReflTransGen dictionary.Follows "a" place →
        PartWays (Path.names "b.y") (Path.leadingNames place)) ∧
      outcome (dictionary.get "a") = .ok (some "none") ∧
      outcome (after.get "a") = .ok (some "none") := by
  generalize isBefore : ({ ofNode (.object [("a", .ofText "${b.x:none}")]) with
    substitutesConfiguration := true } : Dictionary) = before
  have cuts : Template.Cuts "${b.x:none}".toList
      [.braced ['b', '.', 'x'] (some ['n', 'o', 'n', 'e'])] none :=
    .piece (@Template.Starts.defaulted ['b', '.', 'x'] ['n', 'o', 'n', 'e'] [] (by simp)
      (by simp)) .done
  have asked : before.rawText "a" = .ok (some "${b.x:none}") := by
    rw [← isBefore]
    decide +kernel
  have missing : outcome (before.rawText "b.x") = .error .notFound := by
    rw [← isBefore]
    decide +kernel
  have leads : ∀ place, Relation.ReflTransGen before.Follows "a" place →
      place = "a" ∨ place = "b.x" := by
    intro place leads
    induction leads with
    | refl => exact .inl rfl
    | tail _ follows ih =>
        rcases follows with ⟨text, reference, found, refers, rfl, _⟩
        rcases ih with rfl | rfl
        · cases asked.symm.trans found
          rcases refers with ⟨pieces, unclosed, cuts', piece, mem, isReference⟩
          rcases cuts'.unique cuts with ⟨rfl, _⟩
          rw [List.mem_singleton] at mem
          subst mem
          cases isReference
          exact .inr (by decide)
        · rw [found] at missing
          cases missing
  have apart : ∀ place, Relation.ReflTransGen before.Follows "a" place →
      PartWays (Path.names "b.y") (Path.leadingNames place) := by
    intro place isLed
    rcases leads place isLed with rfl | rfl
    · exact ⟨0, "b", "a", by decide, by decide, by decide⟩
    · exact ⟨1, "y", "x", by decide, by decide, by decide⟩
  have answer : outcome (before.get "a") = .ok (some "none") := by
    rw [← isBefore]
    decide +kernel
  cases applied : before.apply ⟨"b.y", some "1"⟩ with
  | error fault =>
      rw [← isBefore] at applied
      cases applied
  | ok after =>
      refine
        ⟨before, after, by rw [← isBefore]; rfl, by rw [← isBefore], applied, apart, answer, ?_⟩
      rw [get_of_write_apart applied apart, answer]

end ConfigTree.Dictionary
