import BlockSearch.Proofs.Scan.Gathering

set_option autoImplicit false

namespace BlockSearch.Collection

def filesOf (items : List (Except WalkFault Scanned)) : List Scanned := items.filterMap Except.toOption

def EndedBy (fault : WalkFault) (items : List (Except WalkFault Scanned)) : Prop :=
  ∃ front rest, items = front ++ .error fault :: rest ∧
    ∀ item ∈ front, ∃ scanned : Scanned, item = .ok scanned ∧ scanned.findings = []

theorem ended_by_fault_iff (fault other : WalkFault) (rest : List (Except WalkFault Scanned)) :
    EndedBy fault (.error other :: rest) ↔ other = fault := by
  constructor
  · rintro ⟨front, behind, split, barren⟩
    cases front with
    | nil => exact Except.error.inj (List.cons.inj split).1
    | cons item front =>
        obtain ⟨scanned, file, -⟩ := barren item List.mem_cons_self
        exact absurd ((List.cons.inj split).1.trans file) nofun
  · rintro rfl
    exact ⟨[], rest, rfl, fun _ member => absurd member List.not_mem_nil⟩

theorem ended_by_file_iff (fault : WalkFault) (scanned : Scanned) (rest : List (Except WalkFault Scanned)) :
    EndedBy fault (.ok scanned :: rest) ↔ scanned.findings = [] ∧ EndedBy fault rest := by
  constructor
  · rintro ⟨front, behind, split, barren⟩
    cases front with
    | nil => exact absurd (List.cons.inj split).1 nofun
    | cons item front =>
        obtain ⟨⟨other, file, none⟩, later⟩ := List.forall_mem_cons.mp barren
        cases (List.cons.inj split).1.trans file
        exact ⟨none, front, behind, (List.cons.inj split).2, later⟩
  · rintro ⟨none, front, behind, rfl, barren⟩
    exact ⟨.ok scanned :: front, behind, rfl, List.forall_mem_cons.mpr ⟨⟨scanned, rfl, none⟩, barren⟩⟩

theorem gather_ended (collection : Collection) (budget : Budget) (items : List (Except WalkFault Scanned))
    (fault : WalkFault) (nothing : collection.findings = []) (ended : EndedBy fault items) :
    gather collection budget items = (.error fault, budget) := by
  induction items generalizing collection with
  | nil => simp [EndedBy] at ended
  | cons item rest ih =>
      cases item with
      | error other =>
          cases (ended_by_fault_iff fault other rest).mp ended
          simp [gather, nothing]
      | ok scanned =>
          obtain ⟨none, later⟩ := (ended_by_file_iff fault scanned rest).mp ended
          rw [gather, add_nothing collection budget scanned none]
          exact ih ⟨collection.findings, collection.filesScanned + 1⟩ nothing later

theorem add_goes_on (collection : Collection) (budget : Budget) (scanned : Scanned) (more : Collection)
    (after : Budget) (room : 0 < budget.remaining) (added : collection.add budget scanned = (false, more, after)) :
    0 < after.remaining ∧ (more.findings = [] → collection.findings = [] ∧ scanned.findings = []) := by
  by_cases none : scanned.findings = []
  · rw [add_nothing collection budget scanned none] at added
    cases added
    exact ⟨room, fun nothing => ⟨nothing, none⟩⟩
  · rw [add_some collection budget scanned none, Prod.mk.injEq, Prod.mk.injEq] at added
    obtain ⟨goesOn, rfl, rfl⟩ := added
    constructor
    · simp only [Budget.record, decide_eq_false_iff_not, Nat.not_le] at goesOn
      exact Nat.sub_pos_of_lt goesOn
    · intro nothing
      obtain ⟨before, taken⟩ := List.append_eq_nil_iff.mp nothing
      exact ⟨before, (List.take_eq_nil_iff.mp taken).resolve_left (Nat.ne_of_gt room)⟩

-- Faults that come too late to be the answer change nothing.
theorem gather_files (collection : Collection) (budget : Budget) (items : List (Except WalkFault Scanned))
    (room : 0 < budget.remaining) (clear : collection.findings = [] → ∀ fault, ¬ EndedBy fault items) :
    gather collection budget items = gather collection budget ((filesOf items).map .ok) := by
  induction items generalizing collection budget with
  | nil => rfl
  | cons item rest ih =>
      cases item with
      | error fault =>
          have some : collection.findings ≠ [] := fun nothing => clear nothing fault ((ended_by_fault_iff fault fault rest).mpr rfl)
          rw [gather, if_neg (by simpa using some)]
          exact ih collection budget room fun nothing => absurd nothing some
      | ok scanned =>
          have files : filesOf (.ok scanned :: rest) = scanned :: filesOf rest := rfl
          rw [files, List.map_cons, gather, gather]
          cases added : collection.add budget scanned with
          | mk spent reached =>
              cases spent with
              | true => rfl
              | false =>
                  obtain ⟨left, found⟩ := add_goes_on collection budget scanned _ _ room added
                  refine ih reached.1 reached.2 left fun nothing fault ended => ?_
                  obtain ⟨before, none⟩ := found nothing
                  exact clear before fault ((ended_by_file_iff fault scanned rest).mpr ⟨none, ended⟩)

-- How far the files go: to the one with which the bound is reached, or to the last.
structure UpTo (bound : Nat) (files : List Scanned) (count : Nat) : Prop where
  within : count ≤ files.length
  short : ∀ fewer < count, ((files.take fewer).flatMap Scanned.findings).length < bound
  reached : count < files.length → bound ≤ ((files.take count).flatMap Scanned.findings).length

theorem up_to_files_until (bound : Nat) (files : List Scanned) (positive : 0 < bound) :
    UpTo bound files (filesUntil bound (files.map fun scanned => scanned.findings.length)) := by
  induction files generalizing bound with
  | nil => exact ⟨Nat.le_refl _, fun _ less => absurd less (Nat.not_lt_zero _), fun less => absurd less (Nat.not_lt_zero _)⟩
  | cons scanned rest ih =>
      rw [List.map_cons, filesUntil]
      by_cases reaches : bound ≤ scanned.findings.length
      · rw [if_pos reaches]
        refine ⟨by simp, fun fewer less => ?_, fun _ => by simpa using reaches⟩
        rw [Nat.lt_one_iff.mp less]
        exact positive
      · rw [if_neg reaches]
        obtain ⟨within, short, reached⟩ := ih (bound - scanned.findings.length) (by omega)
        refine ⟨Nat.succ_le_succ within, fun fewer less => ?_, fun less => ?_⟩
        · cases fewer with
          | zero => exact positive
          | succ fewer =>
              have shorter := short fewer (Nat.lt_of_succ_lt_succ less)
              rw [List.take_succ_cons, List.flatMap_cons, List.length_append]
              omega
        · have enough := reached (Nat.lt_of_succ_lt_succ less)
          rw [List.take_succ_cons, List.flatMap_cons, List.length_append]
          omega

theorem gather_up_to_bound (maxFiles maxFindings : Nat) (positive : 0 < maxFindings)
    (small : maxFindings < Budget.countSpan) (items : List (Except WalkFault Scanned)) :
    let budget := Budget.start maxFiles maxFindings false
    let found := (filesOf items).flatMap Scanned.findings
    (∀ fault, EndedBy fault items → empty.gather budget items = (.error fault, budget)) ∧
      ((∀ fault, ¬ EndedBy fault items) → ∃ filesScanned after,
        empty.gather budget items = (.ok ⟨found.take maxFindings, filesScanned⟩, after) ∧
          UpTo maxFindings (filesOf items) filesScanned ∧
          after.recorded = (found.take maxFindings).length ∧ after.recorded ≤ maxFindings ∧
          (after.cancelled = true ↔ (found.take maxFindings).length = maxFindings)) := by
  intro budget found
  refine ⟨fun fault ended => gather_ended empty budget items fault rfl ended, fun clear => ?_⟩
  have room : budget.remaining = maxFindings := rfl
  have gathered := (gather_files empty budget items positive fun _ => clear).trans
    (gather_until empty budget (filesOf items) small positive)
  simp only [room, empty, List.nil_append, Nat.zero_add] at gathered
  have recorded : budget.recorded + min maxFindings found.length = (found.take maxFindings).length := by
    rw [List.length_take]
    exact Nat.zero_add _
  refine ⟨_, _, gathered, up_to_files_until maxFindings (filesOf items) positive, recorded, ?_, ?_⟩
  · exact recorded.trans_le (List.length_take_le maxFindings found)
  · rw [List.length_take]
    constructor
    · intro stopped
      exact Nat.min_eq_left (of_decide_eq_true stopped)
    · intro full
      exact decide_eq_true (full.symm.trans_le (Nat.min_le_right _ _))

-- A fault behind a file without findings is the answer; one behind findings is not, and the bound cuts the last file.
theorem gather_up_to_bound_among_faults :
    let matcher : Matcher := ⟨Symbol.Pattern.ofSymbols [['f']], ⟨100, 50⟩⟩
    let file : FileEntry := ⟨['a'], ['a'], 8, 0⟩
    let bare : Scanned := ⟨file, []⟩
    let full : Scanned := ⟨file, matcher.findings file "f \x7b\nf \x7b\n".toList⟩
    let fault : WalkFault := ⟨[]⟩
    let budget := Budget.start 9 3 false
    empty.gather budget [.ok bare, .error fault, .ok full] = (.error fault, budget) ∧
      ∃ filesScanned after,
        empty.gather budget [.ok bare, .ok full, .error fault, .ok full] =
          (.ok ⟨(full.findings ++ full.findings).take 3, filesScanned⟩, after) ∧
        after.recorded = 3 ∧ after.cancelled = true := by
  intro matcher file bare full fault budget
  have two : full.findings.length = 2 := by decide +kernel
  have some : full.findings ≠ [] := by
    intro none
    simp [none] at two
  have early : EndedBy fault [.ok bare, .error fault, .ok full] :=
    (ended_by_file_iff _ _ _).mpr ⟨rfl, (ended_by_fault_iff _ _ _).mpr rfl⟩
  have clear : ∀ other, ¬ EndedBy other [.ok bare, .ok full, .error fault, .ok full] := by
    intro other ended
    obtain ⟨-, behind⟩ := (ended_by_file_iff _ _ _).mp ended
    exact some ((ended_by_file_iff _ _ _).mp behind).1
  obtain ⟨filesScanned, after, gathered, -, recorded, -, cancelled⟩ :=
    (gather_up_to_bound 9 3 (by decide) (by decide) _).2 clear
  have found : (filesOf [.ok bare, .ok full, .error fault, .ok full]).flatMap Scanned.findings =
      full.findings ++ full.findings := by
    change bare.findings ++ (full.findings ++ (full.findings ++ [])) = _
    rw [List.append_nil]
    rfl
  have cut : ((full.findings ++ full.findings).take 3).length = 3 := by simp [two]
  rw [found] at gathered recorded cancelled
  exact ⟨(gather_up_to_bound 9 3 (by decide) (by decide) _).1 fault early,
    filesScanned, after, gathered, recorded.trans cut, cancelled.mpr cut⟩

end BlockSearch.Collection
