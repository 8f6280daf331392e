import BlockSearch.Proofs.Discovery.Pruning

set_option autoImplicit false

namespace BlockSearch

section More

variable (patterns others : List Text) (more : patterns ⊆ others)
include more

namespace Exclusion

theorem kept_fewer (tier : Tier) : tier.kept others ⊆ tier.kept patterns := by
  intro name member
  rw [Tier.kept_iff] at member ⊢
  exact ⟨member.1, fun pattern present => member.2 pattern (more present)⟩

theorem leaves_out_fewer (segments : List Text) (out : LeavesOut others segments) : LeavesOut patterns segments := by
  rcases out with noise | ⟨tier, above, name, below, cut, some, admitted, member⟩
  · exact .inl noise
  · exact .inr ⟨tier, above, name, below, cut, some, admitted, kept_fewer patterns others more tier member⟩

theorem shuts_fewer (segments : List Text) (shut : Shuts others segments) : Shuts patterns segments := by
  obtain ⟨tier, above, name, cut, admitted, member⟩ := shut
  exact ⟨tier, above, name, cut, admitted, kept_fewer patterns others more tier member⟩

end Exclusion

variable (tree : FileTree) (settings : Settings) (plan larger : Plan)
  (planned : Engine.plan tree settings patterns = .ok plan) (other : Engine.plan tree settings others = .ok larger)
include planned other

theorem Plan.targets_more : plan.targets ⊆ larger.targets := by
  intro target member
  obtain ⟨-, gathered⟩ := Plan.make_root _ _ _ _ _ planned
  obtain ⟨-, gatheredOther⟩ := Plan.make_root _ _ _ _ _ other
  obtain ⟨pattern, present, given⟩ := Plan.gather_source _ _ _ gathered target member
  exact Plan.gather_member _ _ _ _ _ gatheredOther (List.map_subset _ more present) given

theorem Plan.candidates_more (limits : WalkLimits) (candidate : Candidate)
    (member : .ok candidate ∈ plan.candidates tree limits) : .ok candidate ∈ larger.candidates tree limits := by
  obtain ⟨root, -⟩ := Plan.make_root _ _ _ _ _ planned
  obtain ⟨rootOther, -⟩ := Plan.make_root _ _ _ _ _ other
  obtain ⟨target, present, found⟩ := List.mem_flatMap.mp member
  refine List.mem_flatMap.mpr ⟨target, Plan.targets_more patterns others more tree settings plan larger planned other
    present, ?_⟩
  cases target with
  | file path => exact found
  | walk target =>
      rw [Target.candidates, root] at found
      rw [Target.candidates, rootOther]
      rcases target.candidate_cases tree settings.root limits with none | ⟨location, visit, -, -, -, shape⟩
      · exact absurd found (none _ _)
      · -- The base, the levels and the glob are those of the target, and only what is pruned is the plan's own.
        have opens : WalkSetting.Opens ⟨tree, settings.root, plan.pruned⟩ ⟨tree, settings.root, larger.pruned⟩ := by
          refine ⟨rfl, fun path shut => ?_⟩
          exact (Plan.prunes_iff tree settings patterns plan planned _).mpr (Exclusion.shuts_fewer patterns others more _
            ((Plan.prunes_iff tree settings others larger other _).mp shut))
        obtain ⟨file, walked, wanted, same⟩ := (shape _ _).mp found
        exact (shape _ _).mpr ⟨file, visit.files_more _ _ opens _ _ walked, wanted, same⟩

theorem Plan.passes_more (limits : WalkLimits) (candidate : Candidate)
    (passes : Admission.Passes plan limits.maxFileSize candidate) :
    Admission.Passes larger limits.maxFileSize candidate := by
  refine ⟨Bool.eq_false_iff.mpr fun excluded => ?_, passes.2⟩
  obtain ⟨unnamed, out⟩ := (Plan.excludes_iff tree settings others larger other candidate).mp excluded
  have still := (Plan.excludes_iff tree settings patterns plan planned candidate).mpr
    ⟨unnamed, Exclusion.leaves_out_fewer patterns others more _ out⟩
  rw [passes.1] at still
  exact absurd still Bool.false_ne_true

end More

def Plan.Discovers (tree : FileTree) (limits : WalkLimits) (plan : Plan) (components : List Path.Component) : Prop :=
  ∃ entry, .ok entry ∈ plan.discover tree limits ∧ Path.components entry.location = components

theorem Plan.discovers_iff (tree : FileTree) (limits : WalkLimits) (plan : Plan) (components : List Path.Component) :
    plan.Discovers tree limits components ↔
      ∃ candidate, .ok candidate ∈ plan.candidates tree limits ∧ Admission.Passes plan limits.maxFileSize candidate ∧
        Admission.key candidate = components := by
  constructor
  · rintro ⟨entry, member, rfl⟩
    obtain ⟨candidate, order, present, passes, -, rfl⟩ := Admission.entries_source plan _ _ _ entry member
    exact ⟨candidate, present, passes, rfl⟩
  · rintro ⟨candidate, present, passes, rfl⟩
    exact Admission.entries_complete plan _ Admission.start _ candidate present passes List.not_mem_nil

theorem Plan.discovers_more (tree : FileTree) (settings : Settings) (patterns others : List Text) (plan larger : Plan)
    (limits : WalkLimits) (more : patterns ⊆ others) (planned : Engine.plan tree settings patterns = .ok plan)
    (other : Engine.plan tree settings others = .ok larger) (components : List Path.Component)
    (found : plan.Discovers tree limits components) : larger.Discovers tree limits components := by
  obtain ⟨candidate, present, passes, same⟩ := (plan.discovers_iff tree limits components).mp found
  refine (larger.discovers_iff tree limits components).mpr ⟨candidate, ?_, ?_, same⟩
  · exact Plan.candidates_more patterns others more tree settings plan larger planned other limits candidate present
  · exact Plan.passes_more patterns others more tree settings plan larger planned other limits candidate passes

theorem Engine.plan_ok_iff (tree : FileTree) (settings : Settings) (patterns : List Text) :
    (∃ plan, Engine.plan tree settings patterns = .ok plan) ↔
      ∀ pattern ∈ patterns, ∃ target, Plan.target tree settings.root (FilePattern.complete pattern) = .ok target := by
  obtain ⟨exclusions, readable⟩ := Exclusion.fragments_readable patterns
  have targets := Plan.gather_ok_iff (Plan.target tree settings.root) (patterns.map FilePattern.complete)
  rw [List.forall_mem_map] at targets
  rw [← targets, plan, Plan.make, readable]
  cases Plan.gather (Plan.target tree settings.root) (patterns.map FilePattern.complete) with
  | error fault => simp
  | ok made => simp

theorem discover_more_patterns (tree : FileTree) (settings : Settings) (patterns : List Text) (plan : Plan)
    (limits : WalkLimits) (planned : Engine.plan tree settings patterns = .ok plan) :
    (∀ further larger, Engine.plan tree settings (patterns ++ further) = .ok larger →
      ∀ entry, .ok entry ∈ plan.discover tree limits →
        ∃ other, .ok other ∈ larger.discover tree limits ∧
          Path.components other.location = Path.components entry.location ∧
          Path.components other.path = Path.components entry.path) ∧
    ∀ shuffled, shuffled.Perm patterns → ∃ same, Engine.plan tree settings shuffled = .ok same ∧
      ∀ components, same.Discovers tree limits components ↔ plan.Discovers tree limits components := by
  constructor
  · intro further larger other entry member
    obtain ⟨found, present, same⟩ := Plan.discovers_more tree settings _ _ plan larger limits
      (List.subset_append_left _ _) planned other _ ⟨entry, member, rfl⟩
    refine ⟨found, present, same, ?_⟩
    obtain ⟨root, -⟩ := Plan.make_root _ _ _ _ _ planned
    obtain ⟨rootOther, -⟩ := Plan.make_root _ _ _ _ _ other
    obtain ⟨a, _, -, -, -, rfl⟩ := Admission.entries_source plan _ _ _ entry member
    obtain ⟨b, _, -, -, -, rfl⟩ := Admission.entries_source larger _ _ _ found present
    simp only [Admission.entryOf, root, rootOther] at same ⊢
    exact Path.components_shown _ _ _ same
  · intro shuffled permuted
    obtain ⟨same, other⟩ : ∃ same, Engine.plan tree settings shuffled = .ok same := by
      rw [Engine.plan_ok_iff]
      exact fun pattern member =>
        (Engine.plan_ok_iff tree settings patterns).mp ⟨plan, planned⟩ pattern (permuted.subset member)
    refine ⟨same, other, fun components => ⟨?_, ?_⟩⟩
    · exact Plan.discovers_more tree settings _ _ same plan limits permuted.subset other planned components
    · exact Plan.discovers_more tree settings _ _ plan same limits permuted.symm.subset planned other components

-- A file that only its own pattern lets through, and a pattern that opens a directory for the others.
theorem discover_more_patterns_of_underscore :
    let tree : FileTree := ⟨.entry ['w'] (.directory (.entry "dist".toList (.directory
      (.entry "_a.ts".toList (.file [10]) .empty)) .empty)) .empty, "/w".toList⟩
    let settings := Settings.initial "/w".toList
    let limits := Engine.walkLimits settings
    let patterns := [".".toList, "dist//_a.ts".toList]
    let key := Path.components "/w/dist/_a.ts".toList
    ∃ plan larger same, Engine.plan tree settings patterns = .ok plan ∧
      Engine.plan tree settings (patterns ++ ["dist".toList]) = .ok larger ∧
      Engine.plan tree settings patterns.reverse = .ok same ∧
      larger.Discovers tree limits key ∧ same.Discovers tree limits key := by
  intro tree settings limits patterns key
  let spelled : FileEntry := ⟨"dist//_a.ts".toList, "/w/dist//_a.ts".toList, 1, 0⟩
  obtain ⟨plan, planned, found⟩ := Plan.of_given (Engine.plan tree settings patterns) (Plan.discover tree limits ·)
    [.ok spelled] (by decide +kernel)
  have member : .ok spelled ∈ plan.discover tree limits := found ▸ List.mem_singleton_self _
  have located : Path.components spelled.location = key := by decide +kernel
  obtain ⟨larger, other, -⟩ := Plan.of_given (Engine.plan tree settings (patterns ++ ["dist".toList])) Plan.isEmpty
    false (by decide +kernel)
  obtain ⟨more, permuted⟩ := discover_more_patterns tree settings patterns plan limits planned
  obtain ⟨same, shuffled, alike⟩ := permuted patterns.reverse (List.reverse_perm patterns)
  obtain ⟨entry, present, kept, -⟩ := more ["dist".toList] larger other spelled member
  exact ⟨plan, larger, same, planned, other, shuffled, ⟨entry, present, kept.trans located⟩,
    (alike key).mpr ⟨spelled, member, located⟩⟩

end BlockSearch
