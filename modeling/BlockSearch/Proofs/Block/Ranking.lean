import BlockSearch.Block.Ranking

set_option autoImplicit false

namespace BlockSearch.Finding

def Precedes (a b : Finding) : Prop :=
  b.score < a.score ∨ a.score = b.score ∧
    (a.file.order < b.file.order ∨ a.file.order = b.file.order ∧ a.block.offset < b.block.offset)

theorem before_iff (a b : Finding) : before a b = true ↔ ¬ Precedes b a := by
  unfold before Precedes
  split
  · split <;> simp only [decide_eq_true_eq] <;> omega
  · simp only [decide_eq_true_eq]
    omega

theorem before_trans (a b c : Finding) (first : before a b = true) (second : before b c = true) :
    before a c = true := by
  rw [before_iff] at first second ⊢
  unfold Precedes at first second ⊢
  omega

theorem before_total (a b : Finding) : (before a b || before b a) = true := by
  rw [Bool.or_eq_true, before_iff, before_iff]
  unfold Precedes
  omega

theorem ranked_perm (findings : List Finding) : (ranked findings).Perm findings := List.mergeSort_perm _ _

theorem ranked_ordered (findings : List Finding) : (ranked findings).Pairwise fun a b => before a b = true :=
  List.pairwise_mergeSort before_trans before_total findings

def Apart (a b : Finding) : Prop := a.file.order ≠ b.file.order ∨ a.block.offset ≠ b.block.offset

theorem apart_symm {a b : Finding} (apart : Apart a b) : Apart b a := apart.imp Ne.symm Ne.symm

theorem ranked_strict (findings : List Finding) (apart : findings.Pairwise Apart) :
    (ranked findings).Pairwise Precedes := by
  have rankedApart := apart.perm (ranked_perm findings).symm apart_symm
  apply ((ranked_ordered findings).and rankedApart).imp
  intro a b ⟨ordered, different⟩
  rw [before_iff] at ordered
  unfold Precedes Apart at *
  omega

theorem strict_ranking_unique (a b : List Finding) (first : a.Pairwise Precedes) (second : b.Pairwise Precedes)
    (same : a.Perm b) : a = b := by
  apply List.Perm.eq_of_pairwise _ first second same
  intro x y _ _ xy yx
  unfold Precedes at xy yx
  omega

theorem ranked_of_perm (a b : List Finding) (apart : a.Pairwise Apart) (same : a.Perm b) : ranked a = ranked b := by
  apply strict_ranking_unique _ _ (ranked_strict a apart) (ranked_strict b (apart.perm same apart_symm))
  exact (ranked_perm a).trans (same.trans (ranked_perm b).symm)

end BlockSearch.Finding
