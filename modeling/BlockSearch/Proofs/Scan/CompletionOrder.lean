import BlockSearch.Proofs.Scan.Gathering

set_option autoImplicit false

namespace BlockSearch

def bestGathered (maxFiles maxFindings limit : Nat) (scans : List Scanned) :
    Except WalkFault (List Finding × Nat) :=
  (Collection.empty.gather (Budget.start maxFiles maxFindings false) (scans.map .ok)).1.map fun collection =>
    Finding.best limit collection.findings

theorem best_gathered_eq (maxFiles maxFindings limit : Nat) (scans : List Scanned)
    (room : (scans.flatMap Scanned.findings).length ≤ maxFindings) :
    bestGathered maxFiles maxFindings limit scans =
      .ok (Finding.best limit (scans.flatMap Scanned.findings)) := by
  obtain ⟨files, gathered⟩ := Collection.gather_all Collection.empty (Budget.start maxFiles maxFindings false) scans
    (by simpa [Budget.start] using room)
  rw [bestGathered, gathered]
  rfl

theorem best_gathered_permuted (maxFiles maxFindings limit : Nat) (scans permuted : List Scanned)
    (coherent : ∀ scanned ∈ scans, scanned.Coherent)
    (numbered : scans.Pairwise fun a b => a.file.order ≠ b.file.order)
    (room : (scans.flatMap Scanned.findings).length ≤ maxFindings) (same : permuted.Perm scans) :
    bestGathered maxFiles maxFindings limit permuted = bestGathered maxFiles maxFindings limit scans := by
  have found := same.flatMap_right Scanned.findings
  have apart := findings_apart scans coherent numbered
  rw [best_gathered_eq _ _ _ scans room, best_gathered_eq _ _ _ permuted (found.length_eq ▸ room), Finding.best,
    Finding.best, Finding.ranked_of_perm _ _ apart found.symm, found.length_eq]

theorem best_in_any_order (maxFiles maxFindings : Nat) (scans : List Scanned)
    (coherent : ∀ scanned ∈ scans, scanned.Coherent)
    (numbered : scans.Pairwise fun a b => a.file.order ≠ b.file.order)
    (room : (scans.flatMap Scanned.findings).length ≤ maxFindings) :
    ∃ ranking : List Finding, ranking.Perm (scans.flatMap Scanned.findings) ∧ ranking.Pairwise Finding.Precedes ∧
      (∀ permuted, permuted.Perm scans → ∀ limit,
        bestGathered maxFiles maxFindings limit permuted = .ok (ranking.take limit, ranking.length)) ∧
      ∀ fewer more, fewer ≤ more → ∃ front whole total,
        bestGathered maxFiles maxFindings fewer scans = .ok (front, total) ∧
          bestGathered maxFiles maxFindings more scans = .ok (whole, total) ∧ front <+: whole := by
  have apart := findings_apart scans coherent numbered
  have ranked := Finding.ranked_perm (scans.flatMap Scanned.findings)
  have shown (limit : Nat) : bestGathered maxFiles maxFindings limit scans =
      .ok ((Finding.ranked (scans.flatMap Scanned.findings)).take limit, (scans.flatMap Scanned.findings).length) :=
    best_gathered_eq maxFiles maxFindings limit scans room
  refine ⟨Finding.ranked (scans.flatMap Scanned.findings), ranked, Finding.ranked_strict _ apart, ?_, ?_⟩
  · intro permuted same limit
    rw [best_gathered_permuted maxFiles maxFindings limit scans permuted coherent numbered room same, shown,
      ranked.length_eq]
  · intro fewer more atMost
    exact ⟨_, _, _, shown fewer, shown more, List.take_prefix_take_left atMost⟩

theorem best_of_two_files :
    let matcher : Matcher := ⟨Symbol.Pattern.ofSymbols [['f']], ⟨100, 50⟩⟩
    let first : FileEntry := ⟨['a'], ['a'], 8, 0⟩
    let second : FileEntry := ⟨['b'], ['b'], 4, 1⟩
    let a : Scanned := ⟨first, matcher.findings first "f \x7b\nf \x7b\n".toList⟩
    let b : Scanned := ⟨second, matcher.findings second "f \x7b\n".toList⟩
    ([a, b].flatMap Scanned.findings).length = 3 ∧ bestGathered 9 3 2 [b, a] = bestGathered 9 3 2 [a, b] := by
  intro matcher first second a b
  have count : ([a, b].flatMap Scanned.findings).length = 3 := by decide +kernel
  have coherent : ∀ scanned ∈ [a, b], scanned.Coherent := by
    intro scanned member
    simp only [List.mem_cons, List.not_mem_nil, or_false] at member
    rcases member with rfl | rfl <;> exact matcher.findings_coherent _ _
  obtain ⟨ranking, -, -, any, -⟩ := best_in_any_order 9 3 [a, b] coherent (by simp [a, b, first, second]) (by omega)
  exact ⟨count, (any [b, a] (List.Perm.swap a b []) 2).trans (any [a, b] (List.Perm.refl _) 2).symm⟩

end BlockSearch
