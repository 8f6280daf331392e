import BlockSearch.Proofs.Block.Floor
import BlockSearch.Proofs.Block.Ranking
import BlockSearch.Scan.Collection

set_option autoImplicit false

namespace BlockSearch

open BlockSearch.Symbol (Occurrence)

structure Scanned.Coherent (scanned : Scanned) : Prop where
  file : ∀ finding ∈ scanned.findings, finding.file = scanned.file
  offsets : scanned.findings.Pairwise fun a b => a.block.offset < b.block.offset

namespace Block

theorem collect_offsets (limits : Limits) (lines : List Text) (floor : Nat) (occurrences : List Occurrence)
    (ordered : occurrences.Pairwise Occurrence.Before) (within : Within lines occurrences) :
    (collect limits lines floor occurrences).Pairwise fun a b => a.offset < b.offset := by
  induction occurrences generalizing floor with
  | nil => exact List.Pairwise.nil
  | cons occurrence rest ih =>
      obtain ⟨before, restOrdered⟩ := List.pairwise_cons.mp ordered
      simp only [collect]
      split
      · refine List.pairwise_cons.mpr ⟨?_, ih _ restOrdered within.tail⟩
        intro block member
        obtain ⟨other, later, _, extent, -, -, rfl⟩ := collect_source limits lines _ rest block within.tail member
        exact (before other later).offset
      · exact ih floor restOrdered within.tail

theorem find_offsets (limits : Limits) (pattern : Symbol.Pattern) (content : Text) :
    (find limits pattern content).Pairwise fun a b => a.offset < b.offset := by
  unfold find
  split
  · exact collect_offsets limits _ 0 _ (pattern.occurrences_ordered content) (occurrences_within pattern content)
  · exact List.Pairwise.nil

end Block

theorem Matcher.findings_coherent (matcher : Matcher) (file : FileEntry) (content : Text) :
    Scanned.Coherent ⟨file, matcher.findings file content⟩ where
  file := by
    intro finding member
    obtain ⟨block, -, rfl⟩ := List.mem_map.mp member
    rfl
  offsets := List.pairwise_map.mpr (Block.find_offsets matcher.limits matcher.pattern content)

theorem findings_apart (scans : List Scanned) (coherent : ∀ scanned ∈ scans, scanned.Coherent)
    (numbered : scans.Pairwise fun a b => a.file.order ≠ b.file.order) :
    (scans.flatMap Scanned.findings).Pairwise Finding.Apart := by
  apply List.pairwise_flatMap.mpr
  constructor
  · intro scanned member
    exact (coherent scanned member).offsets.imp fun less => .inr (Nat.ne_of_lt less)
  · apply numbered.imp_of_mem
    intro a b aMember bMember different x xMember y yMember
    left
    rw [(coherent a aMember).file x xMember, (coherent b bMember).file y yMember]
    exact different

namespace Collection

theorem add_nothing (collection : Collection) (budget : Budget) (scanned : Scanned) (none : scanned.findings = []) :
    collection.add budget scanned = (false, ⟨collection.findings, collection.filesScanned + 1⟩, budget) := by
  simp [add, none]

theorem add_some (collection : Collection) (budget : Budget) (scanned : Scanned) (some : scanned.findings ≠ []) :
    collection.add budget scanned =
      ((budget.record (scanned.findings.take budget.remaining).length).1,
        ⟨collection.findings ++ scanned.findings.take budget.remaining, collection.filesScanned + 1⟩,
        (budget.record (scanned.findings.take budget.remaining).length).2) := by
  rw [add, if_neg (by simpa using some)]

-- With room for all findings of a file they are all added. The count may run over and begin again, but then it only
-- leaves more room.
theorem add_all (collection : Collection) (budget : Budget) (scanned : Scanned)
    (room : budget.recorded + scanned.findings.length ≤ budget.maxFindings) :
    ∃ spent after, collection.add budget scanned =
        (spent, ⟨collection.findings ++ scanned.findings, collection.filesScanned + 1⟩, after) ∧
      after.maxFindings = budget.maxFindings ∧ after.recorded ≤ budget.recorded + scanned.findings.length ∧
      (spent = true → budget.maxFindings ≤ budget.recorded + scanned.findings.length) := by
  by_cases none : scanned.findings = []
  · refine ⟨false, budget, ?_, rfl, Nat.le_add_right _ _, by simp⟩
    rw [add_nothing collection budget scanned none, none, List.append_nil]
  · have whole : scanned.findings.take budget.remaining = scanned.findings := by
      apply List.take_of_length_le
      unfold Budget.remaining
      omega
    have counted := Nat.mod_le (budget.recorded + scanned.findings.length) Budget.countSpan
    refine ⟨(budget.record scanned.findings.length).1, (budget.record scanned.findings.length).2,
      by rw [add_some collection budget scanned none, whole], rfl, counted, ?_⟩
    intro spent
    simp only [Budget.record, decide_eq_true_eq] at spent
    exact Nat.le_trans spent counted

theorem gather_all (collection : Collection) (budget : Budget) (scans : List Scanned)
    (room : budget.recorded + (scans.flatMap Scanned.findings).length ≤ budget.maxFindings) :
    ∃ files, (gather collection budget (scans.map .ok)).1 =
      .ok ⟨collection.findings ++ scans.flatMap Scanned.findings, files⟩ := by
  induction scans generalizing collection budget with
  | nil => exact ⟨collection.filesScanned, by simp [gather]⟩
  | cons scanned rest ih =>
      rw [List.flatMap_cons, List.length_append] at room
      obtain ⟨spent, after, added, bound, counted, reached⟩ := add_all collection budget scanned (by omega)
      simp only [List.map_cons, gather, added, List.flatMap_cons]
      cases spent with
      | false =>
          obtain ⟨files, gathered⟩ := ih ⟨_, collection.filesScanned + 1⟩ after (by rw [bound]; omega)
          exact ⟨files, by rw [gathered, List.append_assoc]⟩
      | true =>
          -- The bound is reached with the last finding, so the files that are left have none.
          have full := reached rfl
          have none : rest.flatMap Scanned.findings = [] := List.eq_nil_of_length_eq_zero (by omega)
          exact ⟨_, by rw [none, List.append_nil]⟩

theorem add_within (collection : Collection) (budget : Budget) (scanned : Scanned)
    (small : budget.maxFindings < Budget.countSpan) (within : scanned.findings.length < budget.remaining) :
    collection.add budget scanned =
      (false, ⟨collection.findings ++ scanned.findings, collection.filesScanned + 1⟩,
        { budget with recorded := budget.recorded + scanned.findings.length }) := by
  by_cases none : scanned.findings = []
  · rw [add_nothing collection budget scanned none, none, List.append_nil]
    rfl
  · rw [add_some collection budget scanned none, List.take_of_length_le (Nat.le_of_lt within)]
    unfold Budget.remaining at within
    have counted : (budget.recorded + scanned.findings.length) % Budget.countSpan =
        budget.recorded + scanned.findings.length := Nat.mod_eq_of_lt (by omega)
    have below : ¬ budget.maxFindings ≤ budget.recorded + scanned.findings.length := by omega
    simp [Budget.record, counted, below]

theorem add_reaches (collection : Collection) (budget : Budget) (scanned : Scanned)
    (small : budget.maxFindings < Budget.countSpan) (room : 0 < budget.remaining)
    (reaches : budget.remaining ≤ scanned.findings.length) :
    collection.add budget scanned =
      (true, ⟨collection.findings ++ scanned.findings.take budget.remaining, collection.filesScanned + 1⟩,
        { budget with recorded := budget.maxFindings, cancelled := true }) := by
  have some : scanned.findings ≠ [] := by
    intro none
    rw [none, List.length_nil] at reaches
    omega
  have counted : budget.recorded + budget.remaining = budget.maxFindings := by
    unfold Budget.remaining at room ⊢
    omega
  rw [add_some collection budget scanned some, List.length_take, Nat.min_eq_left reaches]
  simp [Budget.record, counted, Nat.mod_eq_of_lt small]

def filesUntil (bound : Nat) : List Nat → Nat
  | [] => 0
  | count :: rest => if bound ≤ count then 1 else filesUntil (bound - count) rest + 1

theorem gather_until (collection : Collection) (budget : Budget) (scans : List Scanned)
    (small : budget.maxFindings < Budget.countSpan) (room : 0 < budget.remaining) :
    gather collection budget (scans.map .ok) =
      (.ok ⟨collection.findings ++ (scans.flatMap Scanned.findings).take budget.remaining,
          collection.filesScanned + filesUntil budget.remaining (scans.map fun scanned => scanned.findings.length)⟩,
        { budget with
          recorded := budget.recorded + min budget.remaining (scans.flatMap Scanned.findings).length
          cancelled := budget.cancelled ||
            decide (budget.remaining ≤ (scans.flatMap Scanned.findings).length) }) := by
  induction scans generalizing collection budget with
  | nil => simp [gather, filesUntil, Nat.ne_of_gt room]
  | cons scanned rest ih =>
      simp only [List.map_cons, gather, List.flatMap_cons, filesUntil, List.length_append]
      by_cases reaches : budget.remaining ≤ scanned.findings.length
      · have atBound : budget.recorded + budget.remaining = budget.maxFindings := by
          unfold Budget.remaining at room ⊢
          omega
        have longer := Nat.le_add_right_of_le (k := (rest.flatMap Scanned.findings).length) reaches
        rw [add_reaches collection budget scanned small room reaches, if_pos reaches,
          List.take_append_of_le_length reaches, Nat.min_eq_left longer, atBound, decide_eq_true longer, Bool.or_true]
      · have within := Nat.lt_of_not_le reaches
        have left : Budget.remaining { budget with recorded := budget.recorded + scanned.findings.length } =
            budget.remaining - scanned.findings.length := Nat.sub_add_eq _ _ _
        have later := ih ⟨collection.findings ++ scanned.findings, collection.filesScanned + 1⟩
          { budget with recorded := budget.recorded + scanned.findings.length } small (by rw [left]; omega)
        have counted : budget.recorded + scanned.findings.length +
            min (budget.remaining - scanned.findings.length) (rest.flatMap Scanned.findings).length =
              budget.recorded + min budget.remaining
                (scanned.findings.length + (rest.flatMap Scanned.findings).length) := by omega
        rw [add_within collection budget scanned small within, if_neg reaches, List.take_append,
          List.take_of_length_le (Nat.le_of_lt within)]
        simp only [later, left, counted, Nat.sub_le_iff_le_add', List.append_assoc, Nat.add_assoc, Nat.add_comm 1]

end Collection

end BlockSearch
