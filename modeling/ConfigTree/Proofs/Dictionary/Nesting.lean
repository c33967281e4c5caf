import ConfigTree.Proofs.Dictionary.Locate
import ConfigTree.Proofs.Dictionary.Substitution
import Mathlib.Logic.Relation

/-!
# The nesting limit

A lookup follows the references in a text into the tree, and those in the texts
found there, as long as levels are left. A chain of references with more links
than there are levels makes the lookup fail, whatever the defaults on the way
say: a default stands in for a missing node only. Without such a chain the
levels are never used up, so more of them would not change the result.

Both directions are inductions on the levels that are left, over all paths at
once. One step compares the lookups behind the references of one text.
-/

namespace ConfigTree.Dictionary

open Template

variable {dictionary : Dictionary} {path : String}
  {follow follow' : String → Except Fault (Option String)}

/-- The text at `path` contains a reference that is looked up in the tree as `next`. -/
def Follows (dictionary : Dictionary) (path next : String) : Prop :=
  ∃ text reference, dictionary.rawText path = .ok (some text) ∧ Refers text reference ∧
    Text.trimmed reference.name = next ∧ dictionary.Followed next

/-- So many references can be followed one after the other, the first one in the text at a path. -/
def Chain (dictionary : Dictionary) : Nat → String → Prop
  | 0, _ => True
  | links + 1, path => ∃ next, dictionary.Follows path next ∧ dictionary.Chain links next

theorem getWith_of_text {text : String} (found : dictionary.rawText path = .ok (some text)) :
    dictionary.getWith follow path =
      if dictionary.substitutesEnvironment || dictionary.substitutesConfiguration then do
        return some (← dictionary.substituteWith follow text)
      else .ok (some text) := by
  simp only [getWith, found]
  rfl

theorem getWith_congr (agree : ∀ next, dictionary.Follows path next → follow next = follow' next) :
    dictionary.getWith follow path = dictionary.getWith follow' path := by
  cases found : dictionary.rawText path with
  | error fault => simp [getWith, found, bind, Except.bind]
  | ok value =>
      cases value with
      | none => simp [getWith, found, bind, Except.bind]
      | some text =>
          have same : dictionary.substituteWith follow text =
              dictionary.substituteWith follow' text := by
            apply substituteWith_congr
            intro reference refers
            apply resolve_congr
            intro followed
            exact agree _ ⟨text, reference, found, refers, rfl, followed⟩
          rw [getWith_of_text found, getWith_of_text found, same]

/-- A lookup that finds a text fails with a fault of its own, or with the fault of a lookup that it
makes. That nothing is at a path is never the fault. -/
theorem of_getWith_eq_error {fault : Fault}
    (failed : dictionary.getWith follow path = .error fault) :
    dictionary.rawText path = .error fault ∨
      fault.isNotFound = false ∧ (fault.code = some 501 ∨ fault.code = some 502 ∨
        ∃ next, dictionary.Follows path next ∧ follow next = .error fault) := by
  cases found : dictionary.rawText path with
  | error missing =>
      left
      simpa [getWith, found, bind, Except.bind] using failed
  | ok value =>
      right
      cases value with
      | none => simp [getWith, found, bind, Except.bind, pure, Except.pure] at failed
      | some text =>
          rw [getWith_of_text found] at failed
          split at failed
          · cases replaced : dictionary.substituteWith follow text with
            | ok result => simp [replaced, bind, Except.bind, pure, Except.pure] at failed
            | error inner =>
                simp only [replaced, bind, Except.bind, Except.error.injEq] at failed
                subst inner
                rcases of_substituteWith_eq_error replaced with
                  ⟨reference, refers, unresolved⟩ | ⟨name, rfl⟩
                · rcases of_resolve_eq_error unresolved with rfl | ⟨followed, looked, present⟩
                  · exact ⟨rfl, .inl rfl⟩
                  · exact ⟨present,
                      .inr (.inr ⟨_, ⟨text, reference, found, refers, rfl, followed⟩, looked⟩)⟩
                · exact ⟨rfl, .inr (.inl rfl)⟩
          · cases failed

/-- A lookup fails if a lookup that it makes fails, unless that one finds nothing. -/
theorem getWith_of_follows {next : String} {fault : Fault}
    (follows : dictionary.Follows path next) (failed : follow next = .error fault)
    (present : fault.isNotFound = false) :
    ∃ fault, dictionary.getWith follow path = .error fault ∧ fault.isNotFound = false := by
  rcases follows with ⟨text, reference, found, refers, rfl, followed⟩
  have unresolved : dictionary.resolve follow reference = .error fault := by
    simp [resolve_of_followed followed, failed, present]
  rcases substituteWith_of_refers refers unresolved with ⟨inner, replaced⟩
  have whole : dictionary.getWith follow path = .error inner := by
    simp [getWith_of_text found, followed.2.1, replaced, bind, Except.bind]
  refine ⟨inner, whole, ?_⟩
  rcases of_getWith_eq_error whole with missing | ⟨notMissing, _⟩
  · simp [found] at missing
  · exact notMissing

theorem code_of_getWith {fault : Fault}
    (safe : ∀ next fault, dictionary.Follows path next → follow next = .error fault →
      fault.code ≠ some 503)
    (failed : dictionary.getWith follow path = .error fault) : fault.code ≠ some 503 := by
  rcases of_getWith_eq_error failed with missing | ⟨_, code | code | ⟨next, follows, looked⟩⟩
  · rcases code_lt_of_rawText_eq_error missing with ⟨code, small, isCode⟩
    rw [isCode, ne_eq, Option.some.injEq]
    omega
  · simp [code]
  · simp [code]
  · exact safe next fault follows looked

/-- A chain with more links than there are levels makes the lookup fail. -/
theorem getWithin_of_chain {levels : Nat} (chain : dictionary.Chain (levels + 1) path) :
    ∃ fault, dictionary.getWithin levels path = .error fault ∧ fault.isNotFound = false := by
  induction levels generalizing path with
  | zero =>
      rcases chain with ⟨next, follows, _⟩
      exact getWith_of_follows follows rfl rfl
  | succ levels ih =>
      rcases chain with ⟨next, follows, rest⟩
      rcases ih rest with ⟨fault, failed, present⟩
      exact getWith_of_follows follows failed present

/-- Without a chain that is too long for the levels, more levels do not matter. -/
theorem getWithin_of_not_chain {levels limit : Nat} (short : ¬dictionary.Chain (levels + 1) path)
    (more : levels ≤ limit) :
    dictionary.getWithin limit path = dictionary.getWithin levels path := by
  induction levels generalizing path limit with
  | zero =>
      have nowhere : ∀ next, ¬dictionary.Follows path next :=
        fun next follows => short ⟨next, follows, trivial⟩
      cases limit <;> exact getWith_congr fun next follows => absurd follows (nowhere next)
  | succ levels ih =>
      cases limit with
      | zero => omega
      | succ limit =>
          apply getWith_congr
          intro next follows
          exact ih (fun rest => short ⟨next, follows, rest⟩) (by omega)

theorem code_of_getWithin_of_not_chain {levels : Nat} {fault : Fault}
    (short : ¬dictionary.Chain (levels + 1) path)
    (failed : dictionary.getWithin levels path = .error fault) : fault.code ≠ some 503 := by
  induction levels generalizing path fault with
  | zero =>
      exact code_of_getWith (fun next _ follows _ => absurd ⟨next, follows, trivial⟩ short) failed
  | succ levels ih =>
      apply code_of_getWith _ failed
      intro next inner follows looked
      exact ih (fun rest => short ⟨next, follows, rest⟩) looked

theorem chain_of_transGen {next : String}
    (cycle : Relation.TransGen dictionary.Follows next next)
    (leads : Relation.TransGen dictionary.Follows path next) (links : Nat) :
    dictionary.Chain links path := by
  induction links generalizing path with
  | zero => trivial
  | succ links ih =>
      rcases Relation.TransGen.head'_iff.mp leads with ⟨middle, follows, rest⟩
      exact ⟨middle, follows, ih (Relation.TransGen.trans_right rest cycle)⟩

/-- `lookup` counts levels from the text that is asked for on, and refuses references at a limit. -/
def Counts (dictionary : Dictionary) (limit : Nat)
    (lookup : Nat → String → Except Fault (Option String)) : Prop :=
  ∀ depth path, lookup depth path = dictionary.getWith
    (fun name => if limit ≤ depth then .error (tooDeep name) else lookup (depth + 1) name) path

/-- A lookup at a level below the limit makes lookups one level deeper, of what the text refers
to. -/
def Nests (dictionary : Dictionary) (limit : Nat) (inner outer : Nat × String) : Prop :=
  outer.1 < limit ∧ inner.1 = outer.1 + 1 ∧ dictionary.Follows outer.2 inner.2

theorem nests_wellFounded (dictionary : Dictionary) (limit : Nat) :
    WellFounded (dictionary.Nests limit) := by
  apply Subrelation.wf _ (measure fun lookup : Nat × String => limit - lookup.1).wf
  rintro inner outer ⟨below, deeper, _⟩
  change limit - inner.1 < limit - outer.1
  omega

/-- Counting levels up to a limit is counting down the levels that are left. -/
theorem counts_getWithin (dictionary : Dictionary) (limit : Nat) :
    dictionary.Counts limit fun depth => dictionary.getWithin (limit - depth) := by
  intro depth path
  by_cases refused : limit ≤ depth
  · have levels : limit - depth = 0 := by omega
    simp only [levels, refused, if_true, getWithin]
  · have levels : limit - depth = limit - (depth + 1) + 1 := by omega
    simp only [refused, if_false]
    rw [levels, getWithin]

theorem Counts.eq_getWithin {limit : Nat} {lookup : Nat → String → Except Fault (Option String)}
    (counts : dictionary.Counts limit lookup) (depth : Nat) (path : String) :
    lookup depth path = dictionary.getWithin (limit - depth) path := by
  generalize left : limit - depth = levels
  induction levels generalizing depth path with
  | zero =>
      have refused : limit ≤ depth := by omega
      rw [counts depth path]
      simp only [refused, if_true, getWithin]
  | succ levels ih =>
      have followed : ¬limit ≤ depth := by omega
      rw [counts depth path]
      simp only [followed, if_false, getWithin]
      apply getWith_congr
      intro next _
      exact ih (depth + 1) next (by omega)

/-- Lookups inside lookups come to an end, and what a lookup comes to is determined. It fails if 33
references can be followed one after the other, as they can where a cycle is reached; otherwise no
reference is refused for its depth, and a larger limit changes nothing. -/
theorem get_of_chain (dictionary : Dictionary) (path : String) :
    (∀ limit, WellFounded (dictionary.Nests limit) ∧
      ∃ lookup, dictionary.Counts limit lookup ∧
        (∀ other, dictionary.Counts limit other → other = lookup) ∧
        ∀ path, lookup 0 path = dictionary.getWithin limit path) ∧
    dictionary.get path = dictionary.getWithin 32 path ∧
    (dictionary.Chain 33 path →
      ∃ fault, dictionary.get path = .error fault ∧ fault.isNotFound = false) ∧
    (∀ next, Relation.ReflTransGen dictionary.Follows path next →
      Relation.TransGen dictionary.Follows next next → dictionary.Chain 33 path) ∧
    (¬dictionary.Chain 33 path →
      (∀ fault, dictionary.get path = .error fault → fault.code ≠ some 503) ∧
      ∀ limit, 32 ≤ limit → dictionary.getWithin limit path = dictionary.get path) := by
  refine ⟨?_, rfl, ?_, ?_, ?_⟩
  · intro limit
    refine ⟨dictionary.nests_wellFounded limit, fun depth => dictionary.getWithin (limit - depth),
      dictionary.counts_getWithin limit, ?_, fun _ => rfl⟩
    intro other counts
    funext depth path
    exact counts.eq_getWithin depth path
  · intro chain
    exact getWithin_of_chain chain
  · intro next leads cycle
    exact chain_of_transGen cycle (cycle.trans_right leads) 33
  · intro short
    refine ⟨?_, ?_⟩
    · intro fault failed
      exact code_of_getWithin_of_not_chain short failed
    · intro limit more
      exact getWithin_of_not_chain short more

/-- A text that refers to itself cannot be looked up. -/
theorem get_of_self_reference :
    ∃ fault, Dictionary.get
      { ofNode (.object [("a", .value (some "${a}"))]) with substitutesConfiguration := true } "a" =
        .error fault ∧ fault.isNotFound = false := by
  generalize isCycle : ({ ofNode (.object [("a", .value (some "${a}"))]) with
    substitutesConfiguration := true } : Dictionary) = cycle
  have read : Path.tokenize "a" = .ok (["a"].map Segment.key) := by decide
  have found : cycle.rawText "a" = .ok (some "${a}") := by
    rw [← outcome_eq_ok_iff, outcome_rawText_of_keys cycle read, ← isCycle]
    rfl
  have cuts : Cuts "${a}".toList [.braced ['a'] none] none :=
    .piece (@Starts.braced ['a'] [] (by simp)) .done
  have followed : cycle.Followed "a" := by
    rw [← isCycle]
    exact ⟨by decide, rfl, rfl⟩
  have follows : cycle.Follows "a" "a" :=
    ⟨"${a}", ⟨"a", none⟩, found, ⟨_, _, cuts, _, List.mem_singleton_self _, rfl⟩, by decide,
      followed⟩
  rcases cycle.get_of_chain "a" with ⟨_, _, fails, reaches, _⟩
  exact fails (reaches "a" .refl (.single follows))

end ConfigTree.Dictionary
