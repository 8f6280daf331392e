import BlockSearch.Proofs.Discovery.Numbering
import BlockSearch.Proofs.Discovery.Planning

set_option autoImplicit false

namespace BlockSearch

def FileEntry.numbered (first : Nat) (entries : List FileEntry) : List FileEntry :=
  (entries.zipIdx first).map fun counted => { counted.1 with order := counted.2 }

namespace Admission

variable (plan : Plan) (maxFileSize : Nat)

-- What was seen before and does not come again leaves gaps, which the numbers do not show.
theorem entries_behind (before : List (List Path.Component)) (alone behind : Admission)
    (seen : ∀ key, key ∈ behind.seen ↔ key ∈ before ∨ key ∈ alone.seen)
    (candidates : List (Except WalkFault Candidate)) (found : List FileEntry)
    (enumerated : alone.entries plan maxFileSize candidates = found.map .ok) :
    behind.entries plan maxFileSize candidates =
      (FileEntry.numbered behind.next
        (found.filter fun entry => decide (Path.components entry.location ∉ before))).map .ok := by
  induction candidates generalizing alone behind found with
  | nil =>
      have none : found = [] := by simpa [entries] using enumerated.symm
      subst none
      rfl
  | cons item rest ih =>
      obtain ⟨candidate, rfl, ⟨admitted, others, rfl, later⟩ | ⟨passed, later⟩⟩ :=
        entries_cases plan maxFileSize alone item rest found enumerated
      · have located : Path.components (entryOf plan candidate alone.next).location = key candidate := rfl
        by_cases known : key candidate ∈ before
        · have again : ¬ (Passes plan maxFileSize candidate ∧ key candidate ∉ behind.seen) :=
            fun both => both.2 ((seen _).mpr (.inl known))
          rw [entries_passes_by plan maxFileSize behind candidate again,
            List.filter_cons_of_neg (by simpa [located] using known)]
          refine ih _ behind (fun other => ?_) others later
          rw [seen, List.mem_cons]
          constructor
          · exact Or.imp_right .inr
          · rintro (there | rfl | there)
            · exact .inl there
            · exact .inl known
            · exact .inr there
        · have new : key candidate ∉ behind.seen := fun member => ((seen _).mp member).elim known admitted.2
          rw [entries_admits plan maxFileSize behind candidate ⟨admitted.1, new⟩,
            List.filter_cons_of_pos (by simpa [located] using known),
            ih ⟨key candidate :: alone.seen, alone.next + 1⟩ ⟨key candidate :: behind.seen, behind.next + 1⟩
              (fun other => by simp [seen, or_left_comm]) others later]
          rfl
      · have still : ¬ (Passes plan maxFileSize candidate ∧ key candidate ∉ behind.seen) := fun both =>
          passed ⟨both.1, fun member => both.2 ((seen _).mpr (.inr member))⟩
        rw [entries_passes_by plan maxFileSize behind candidate still]
        exact ih alone behind seen found later

theorem entries_append (admission : Admission) (front back : List (Except WalkFault Candidate))
    (found : List FileEntry) (enumerated : admission.entries plan maxFileSize front = found.map .ok) :
    ∃ after : Admission, after.next = admission.next + found.length ∧
      (∀ key, key ∈ after.seen ↔ key ∈ (found.map fun entry => Path.components entry.location) ∨
        key ∈ admission.seen) ∧
      admission.entries plan maxFileSize (front ++ back) = found.map .ok ++ after.entries plan maxFileSize back := by
  induction front generalizing admission found with
  | nil =>
      have none : found = [] := by simpa [entries] using enumerated.symm
      subst none
      exact ⟨admission, rfl, by simp, rfl⟩
  | cons item rest ih =>
      obtain ⟨candidate, rfl, ⟨admitted, others, rfl, later⟩ | ⟨passed, later⟩⟩ :=
        entries_cases plan maxFileSize admission item rest found enumerated
      · obtain ⟨after, next, seen, behind⟩ := ih _ others later
        refine ⟨after, by rw [next, List.length_cons, Nat.add_assoc, Nat.add_comm 1], fun other => ?_, ?_⟩
        · rw [seen, List.map_cons, List.mem_cons, List.mem_cons, or_assoc, or_left_comm]
          rfl
        · rw [List.cons_append, entries_admits plan maxFileSize admission candidate admitted, behind, List.map_cons,
            List.cons_append]
      · rw [List.cons_append, entries_passes_by plan maxFileSize admission candidate passed]
        exact ih admission found later

end Admission

namespace Plan

theorem gather_append {α β : Type} (f : α → Except GlobFault (Option β)) (front back : List α) (made others : List β)
    (gathered : gather f front = .ok made) (behind : gather f back = .ok others) :
    gather f (front ++ back) = .ok (made ++ others) := by
  induction front generalizing made with
  | nil =>
      cases gathered
      exact behind
  | cons first rest ih =>
      rw [List.cons_append, gather]
      rw [gather] at gathered
      cases given : f first with
      | error fault =>
          rw [given] at gathered
          cases gathered
      | ok item =>
          cases inner : gather f rest with
          | error fault =>
              rw [given, inner] at gathered
              cases gathered
          | ok further =>
              rw [given, inner] at gathered
              cases gathered
              simp only [ih further inner, List.append_assoc]

theorem make_append (tree : FileTree) (root : Text) (patterns others fragments : List Text) (plan second : Plan)
    (planned : make tree root patterns fragments = .ok plan) (other : make tree root others fragments = .ok second) :
    second = { plan with targets := second.targets } ∧
      make tree root (patterns ++ others) fragments = .ok { plan with targets := plan.targets ++ second.targets } := by
  obtain ⟨plain, gathered⟩ := make_root _ _ _ _ _ planned
  obtain ⟨plainOther, gatheredOther⟩ := make_root _ _ _ _ _ other
  obtain ⟨exclusions, readable, excluded, pruned⟩ := make_exclusions _ _ _ _ _ planned
  obtain ⟨same, readableOther, excludedOther, prunedOther⟩ := make_exclusions _ _ _ _ _ other
  cases readable.symm.trans readableOther
  constructor
  · have roots : second.root = plan.root := plainOther.trans plain.symm
    have files : second.excluded = plan.excluded := excludedOther.trans excluded.symm
    have directories : second.pruned = plan.pruned := prunedOther.trans pruned.symm
    rw [← roots, ← files, ← directories]
  · rw [make, readable, gather_append _ _ _ _ _ gathered gatheredOther]
    simp only [← plain, ← excluded, ← pruned]

theorem discover_retargeted (tree : FileTree) (limits : WalkLimits) (plan : Plan) (targets : List Target) :
    discover tree limits { plan with targets := targets } =
      Admission.start.entries plan limits.maxFileSize (candidates tree limits { plan with targets := targets }) :=
  Admission.entries_alike { plan with targets := targets } limits.maxFileSize plan rfl rfl Admission.start _

end Plan

theorem discover_appended (tree : FileTree) (root : Text) (patterns others fragments : List Text) (limits : WalkLimits)
    (plan second : Plan) (found further : List FileEntry)
    (planned : Plan.make tree root patterns fragments = .ok plan)
    (other : Plan.make tree root others fragments = .ok second)
    (enumerated : plan.discover tree limits = found.map .ok)
    (enumeratedOther : second.discover tree limits = further.map .ok) :
    ∃ both, Plan.make tree root (patterns ++ others) fragments = .ok both ∧
      let seen := found.map fun entry => Path.components entry.location
      let new := further.filter fun entry => decide (Path.components entry.location ∉ seen)
      let all := found ++ FileEntry.numbered found.length new
      both.discover tree limits = all.map .ok ∧ all.map FileEntry.order = List.range all.length := by
  obtain ⟨same, made⟩ := Plan.make_append tree root patterns others fragments plan second planned other
  refine ⟨_, made, ?_⟩
  intro seen new all
  have joined : Plan.candidates tree limits { plan with targets := plan.targets ++ second.targets } =
      plan.candidates tree limits ++ second.candidates tree limits := by
    conv_rhs => rw [same]
    exact List.flatMap_append
  rw [same, Plan.discover_retargeted, ← same] at enumeratedOther
  obtain ⟨after, next, known, appended⟩ := Admission.entries_append plan limits.maxFileSize Admission.start _
    (second.candidates tree limits) found enumerated
  have behind := Admission.entries_behind plan limits.maxFileSize seen Admission.start after known _ further
    enumeratedOther
  have whole : Plan.discover tree limits { plan with targets := plan.targets ++ second.targets } = all.map .ok := by
    rw [Plan.discover_retargeted, joined, appended, behind, next, List.map_append]
    simp only [Admission.start, Nat.zero_add, new]
  exact ⟨whole, Admission.discover_orders tree limits _ all whole⟩

-- The second pattern writes the directory with two slashes; of its files the first one is known.
theorem discover_appended_of_sources :
    let tree : FileTree := ⟨.entry ['w'] (.directory (.entry "src".toList (.directory
      (.entry "a.ts".toList (.file [10]) (.entry "b.ts".toList (.file [10]) .empty))) .empty)) .empty, "/w".toList⟩
    let limits : WalkLimits := ⟨20, 100, true⟩
    let fragments := ["!**/_*".toList]
    let first : FileEntry := ⟨"src/a.ts".toList, "/w/src/a.ts".toList, 1, 0⟩
    ∃ both, Plan.make tree "/w".toList (["src/a.ts".toList] ++ ["src//*.ts".toList]) fragments = .ok both ∧
      both.discover tree limits =
        [.ok first, .ok ⟨"src//b.ts".toList, "/w/src//b.ts".toList, 1, 1⟩] := by
  intro tree limits fragments first
  let second : List FileEntry :=
    [⟨"src//a.ts".toList, "/w/src//a.ts".toList, 1, 0⟩, ⟨"src//b.ts".toList, "/w/src//b.ts".toList, 1, 1⟩]
  obtain ⟨plan, planned, found⟩ := Plan.of_given (Plan.make tree "/w".toList ["src/a.ts".toList] fragments)
    (Plan.discover tree limits ·) ([first].map .ok) (by decide +kernel)
  obtain ⟨other, plannedOther, further⟩ := Plan.of_given (Plan.make tree "/w".toList ["src//*.ts".toList] fragments)
    (Plan.discover tree limits ·) (second.map .ok) (by decide +kernel)
  obtain ⟨both, made, discovered, -⟩ := discover_appended tree "/w".toList ["src/a.ts".toList] ["src//*.ts".toList]
    fragments limits plan other [first] second planned plannedOther found further
  exact ⟨both, made, discovered.trans (by decide +kernel)⟩

end BlockSearch
