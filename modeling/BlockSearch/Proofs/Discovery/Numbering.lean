import BlockSearch.Proofs.Discovery.Admission

set_option autoImplicit false

namespace BlockSearch.Admission

theorem entries_orders (plan : Plan) (maxFileSize : Nat) (admission : Admission)
    (candidates : List (Except WalkFault Candidate)) (found : List FileEntry)
    (enumerated : admission.entries plan maxFileSize candidates = found.map .ok) :
    found.map FileEntry.order = List.range' admission.next found.length := by
  induction candidates generalizing admission found with
  | nil =>
      have none : found = [] := by simpa [entries] using enumerated.symm
      subst none
      rfl
  | cons item rest ih =>
      obtain ⟨candidate, rfl, ⟨-, others, rfl, behind⟩ | ⟨-, behind⟩⟩ :=
        entries_cases plan maxFileSize admission item rest found enumerated
      · rw [List.map_cons, ih _ others behind, List.length_cons, List.range'_succ]
        rfl
      · exact ih admission found behind

theorem discover_orders (tree : FileTree) (limits : WalkLimits) (plan : Plan) (found : List FileEntry)
    (enumerated : plan.discover tree limits = found.map .ok) :
    found.map FileEntry.order = List.range found.length := by
  rw [List.range_eq_range']
  exact entries_orders plan limits.maxFileSize start (plan.candidates tree limits) found enumerated

theorem discover_numbered (tree : FileTree) (limits : WalkLimits) (plan : Plan) (found : List FileEntry)
    (enumerated : plan.discover tree limits = found.map .ok) : found.Pairwise fun a b => a.order < b.order := by
  have increasing : (List.range found.length).Pairwise (· < ·) := List.pairwise_lt_range
  rwa [← discover_orders tree limits plan found enumerated, List.pairwise_map] at increasing

end BlockSearch.Admission
