import BlockSearch.Engine
import BlockSearch.Proofs.Block.Ranking

set_option autoImplicit false

namespace BlockSearch

theorem Report.trailer_is_some (outcome : Outcome) :
    (trailer outcome.findings.length outcome.total).isSome = outcome.isTruncated := by
  unfold trailer Outcome.isTruncated
  split
  · rename_i fewer
    exact (decide_eq_true fewer).symm
  · rename_i all
    exact (decide_eq_false all).symm

namespace Engine

variable (engine : Engine) (tree : FileTree) (cancelled : Bool) (request : Request) (outcome : Outcome)
  (found : (engine.search tree cancelled request).1 = .ok outcome)
include found

theorem search_outcome : ∃ findings : List Finding, findings ≠ [] ∧ outcome.total = findings.length ∧
    outcome.findings = (Finding.ranked findings).take (request.shownLimit engine.settings.defaultLimit) := by
  rw [search] at found
  split at found
  · cases found
  dsimp only at found
  split at found
  · cases found
  split at found
  · cases found
  split at found
  · cases found
  rename_i collection _
  split at found
  · cases found
  · rename_i present
    cases found
    exact ⟨collection.findings, by simpa using present, rfl, rfl⟩

theorem search_shown_length :
    outcome.findings.length = min (request.shownLimit engine.settings.defaultLimit) outcome.total := by
  obtain ⟨findings, -, total, best⟩ := search_outcome engine tree cancelled request outcome found
  rw [best, total, List.length_take, (Finding.ranked_perm findings).length_eq]

theorem search_noted_iff : (Report.trailer outcome.findings.length outcome.total).isSome = true ↔
    request.shownLimit engine.settings.defaultLimit < outcome.total := by
  have shown := search_shown_length engine tree cancelled request outcome found
  rw [Report.trailer_is_some, Outcome.isTruncated, decide_eq_true_iff]
  omega

end Engine

end BlockSearch
