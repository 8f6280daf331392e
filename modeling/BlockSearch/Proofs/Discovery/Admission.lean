import BlockSearch.Discovery.Entries

set_option autoImplicit false

namespace BlockSearch.Admission

variable (plan : Plan) (maxFileSize : Nat)

def Passes (candidate : Candidate) : Prop := isExcluded plan candidate = false ∧ candidate.size ≤ maxFileSize

def key (candidate : Candidate) : List Path.Component := Path.components candidate.path

def entryOf (candidate : Candidate) (order : Nat) : FileEntry :=
  ⟨Path.shown plan.root candidate.path, candidate.path, candidate.size, order⟩

theorem consider_admits (admission : Admission) (candidate : Candidate) (passes : Passes plan maxFileSize candidate)
    (new : key candidate ∉ admission.seen) :
    consider plan maxFileSize admission candidate =
      (some (entryOf plan candidate admission.next), ⟨key candidate :: admission.seen, admission.next + 1⟩) := by
  unfold consider
  dsimp only
  rw [if_neg]
  · rfl
  · simpa [passes.1, key, Nat.not_lt.mpr passes.2] using new

theorem consider_passes_by (admission : Admission) (candidate : Candidate)
    (passed : ¬ (Passes plan maxFileSize candidate ∧ key candidate ∉ admission.seen)) :
    consider plan maxFileSize admission candidate = (none, admission) := by
  unfold consider
  dsimp only
  rw [if_pos]
  by_cases excluded : isExcluded plan candidate = true
  · simp [excluded]
  · by_cases large : maxFileSize < candidate.size
    · simp [large]
    · have seen : key candidate ∈ admission.seen := Decidable.byContradiction fun new =>
        passed ⟨⟨by simpa using excluded, Nat.le_of_not_lt large⟩, new⟩
      rw [Bool.or_eq_true]
      exact .inr (by simpa [key] using seen)

theorem entries_admits (admission : Admission) (candidate : Candidate)
    (admitted : Passes plan maxFileSize candidate ∧ key candidate ∉ admission.seen)
    (rest : List (Except WalkFault Candidate)) :
    admission.entries plan maxFileSize (.ok candidate :: rest) =
      .ok (entryOf plan candidate admission.next) ::
        entries plan maxFileSize ⟨key candidate :: admission.seen, admission.next + 1⟩ rest := by
  rw [entries, consider_admits plan maxFileSize admission candidate admitted.1 admitted.2]

theorem entries_passes_by (admission : Admission) (candidate : Candidate)
    (passed : ¬ (Passes plan maxFileSize candidate ∧ key candidate ∉ admission.seen))
    (rest : List (Except WalkFault Candidate)) :
    admission.entries plan maxFileSize (.ok candidate :: rest) = admission.entries plan maxFileSize rest := by
  rw [entries, consider_passes_by plan maxFileSize admission candidate passed]

theorem entries_cases (admission : Admission) (item : Except WalkFault Candidate)
    (rest : List (Except WalkFault Candidate)) (found : List FileEntry)
    (enumerated : admission.entries plan maxFileSize (item :: rest) = found.map .ok) :
    ∃ candidate, item = .ok candidate ∧
      ((Passes plan maxFileSize candidate ∧ key candidate ∉ admission.seen) ∧
          (∃ others, found = entryOf plan candidate admission.next :: others ∧
            entries plan maxFileSize ⟨key candidate :: admission.seen, admission.next + 1⟩ rest = others.map .ok) ∨
        ¬ (Passes plan maxFileSize candidate ∧ key candidate ∉ admission.seen) ∧
          admission.entries plan maxFileSize rest = found.map .ok) := by
  cases item with
  | error fault => cases found <;> simp [entries] at enumerated
  | ok candidate =>
      refine ⟨candidate, rfl, ?_⟩
      by_cases admitted : Passes plan maxFileSize candidate ∧ key candidate ∉ admission.seen
      · rw [entries_admits plan maxFileSize admission candidate admitted] at enumerated
        cases found with
        | nil => simp at enumerated
        | cons first others =>
            simp only [List.map_cons, List.cons.injEq, Except.ok.injEq] at enumerated
            exact .inl ⟨admitted, others, by rw [enumerated.1], enumerated.2⟩
      · rw [entries_passes_by plan maxFileSize admission candidate admitted] at enumerated
        exact .inr ⟨admitted, enumerated⟩

theorem entries_alike (other : Plan) (root : plan.root = other.root) (excluded : plan.excluded = other.excluded)
    (admission : Admission) (candidates : List (Except WalkFault Candidate)) :
    admission.entries plan maxFileSize candidates = admission.entries other maxFileSize candidates := by
  induction candidates generalizing admission with
  | nil => rfl
  | cons item rest ih =>
      cases item with
      | error fault => rw [entries, entries, ih]
      | ok candidate =>
          have same : consider plan maxFileSize admission candidate = consider other maxFileSize admission candidate := by
            rw [consider, consider, isExcluded, isExcluded, root, excluded]
          rw [entries, entries, same]
          simp only [ih]

theorem entries_source (admission : Admission) (candidates : List (Except WalkFault Candidate)) (entry : FileEntry)
    (member : .ok entry ∈ admission.entries plan maxFileSize candidates) :
    ∃ candidate order, .ok candidate ∈ candidates ∧ Passes plan maxFileSize candidate ∧
      key candidate ∉ admission.seen ∧ entry = entryOf plan candidate order := by
  induction candidates generalizing admission with
  | nil => simp [entries] at member
  | cons item rest ih =>
      cases item with
      | error fault =>
          simp only [entries, List.mem_cons, reduceCtorEq, false_or] at member
          obtain ⟨candidate, order, present, found⟩ := ih admission member
          exact ⟨candidate, order, List.mem_cons_of_mem _ present, found⟩
      | ok candidate =>
          by_cases admitted : Passes plan maxFileSize candidate ∧ key candidate ∉ admission.seen
          · rw [entries_admits plan maxFileSize admission candidate admitted] at member
            rcases List.mem_cons.mp member with here | behind
            · exact ⟨candidate, _, List.mem_cons_self, admitted.1, admitted.2, Except.ok.inj here⟩
            · obtain ⟨other, order, present, passes, new, same⟩ := ih _ behind
              exact ⟨other, order, List.mem_cons_of_mem _ present, passes,
                fun seen => new (List.mem_cons_of_mem _ seen), same⟩
          · rw [entries_passes_by plan maxFileSize admission candidate admitted] at member
            obtain ⟨other, order, present, found⟩ := ih admission member
            exact ⟨other, order, List.mem_cons_of_mem _ present, found⟩

theorem entries_complete (admission : Admission) (candidates : List (Except WalkFault Candidate))
    (candidate : Candidate) (member : .ok candidate ∈ candidates) (passes : Passes plan maxFileSize candidate)
    (new : key candidate ∉ admission.seen) :
    ∃ entry, .ok entry ∈ admission.entries plan maxFileSize candidates ∧
      Path.components entry.location = key candidate := by
  induction candidates generalizing admission with
  | nil => exact absurd member List.not_mem_nil
  | cons item rest ih =>
      cases item with
      | error fault =>
          have later : .ok candidate ∈ rest := by simpa using member
          obtain ⟨entry, present, same⟩ := ih admission later new
          exact ⟨entry, List.mem_cons_of_mem _ present, same⟩
      | ok other =>
          by_cases admitted : Passes plan maxFileSize other ∧ key other ∉ admission.seen
          · rw [entries_admits plan maxFileSize admission other admitted]
            by_cases same : key candidate = key other
            · exact ⟨_, List.mem_cons_self, same.symm⟩
            · have later : .ok candidate ∈ rest := by
                rcases List.mem_cons.mp member with here | behind
                · exact absurd (congrArg key (Except.ok.inj here)) same
                · exact behind
              obtain ⟨entry, present, found⟩ := ih ⟨key other :: admission.seen, admission.next + 1⟩ later
                (by simp [same, new])
              exact ⟨entry, List.mem_cons_of_mem _ present, found⟩
          · rw [entries_passes_by plan maxFileSize admission other admitted]
            apply ih admission _ new
            rcases List.mem_cons.mp member with here | behind
            · exact absurd ⟨Except.ok.inj here ▸ passes, Except.ok.inj here ▸ new⟩ admitted
            · exact behind

def Apart (a b : Except WalkFault FileEntry) : Prop :=
  ∀ first second, a = .ok first → b = .ok second →
    Path.components first.location ≠ Path.components second.location

theorem entries_apart (admission : Admission) (candidates : List (Except WalkFault Candidate)) :
    (admission.entries plan maxFileSize candidates).Pairwise Apart := by
  induction candidates generalizing admission with
  | nil => exact List.Pairwise.nil
  | cons item rest ih =>
      cases item with
      | error fault =>
          refine List.pairwise_cons.mpr ⟨fun _ _ _ _ impossible => ?_, ih admission⟩
          cases impossible
      | ok candidate =>
          by_cases admitted : Passes plan maxFileSize candidate ∧ key candidate ∉ admission.seen
          · rw [entries_admits plan maxFileSize admission candidate admitted]
            refine List.pairwise_cons.mpr ⟨?_, ih _⟩
            -- The key of the first one was seen before the others were considered.
            rintro _ member _ other ⟨⟩ rfl same
            obtain ⟨source, order, -, -, new, made⟩ := entries_source plan maxFileSize _ rest other member
            rw [made] at same
            exact new (List.mem_cons.mpr (.inl same.symm))
          · rw [entries_passes_by plan maxFileSize admission candidate admitted]
            exact ih admission

theorem entries_ok (admission : Admission) (candidates : List Candidate) :
    ∃ found : List FileEntry, admission.entries plan maxFileSize (candidates.map .ok) = found.map .ok := by
  induction candidates generalizing admission with
  | nil => exact ⟨[], rfl⟩
  | cons candidate rest ih =>
      by_cases admitted : Passes plan maxFileSize candidate ∧ key candidate ∉ admission.seen
      · obtain ⟨found, behind⟩ := ih ⟨key candidate :: admission.seen, admission.next + 1⟩
        refine ⟨entryOf plan candidate admission.next :: found, ?_⟩
        rw [List.map_cons, entries_admits plan maxFileSize admission candidate admitted, behind, List.map_cons]
      · obtain ⟨found, behind⟩ := ih admission
        exact ⟨found, by rw [List.map_cons, entries_passes_by plan maxFileSize admission candidate admitted, behind]⟩

structure Admitted (candidates : List Candidate) (found : List FileEntry) : Prop where
  apart : found.Pairwise fun a b => Path.components a.location ≠ Path.components b.location
  source : ∀ entry ∈ found, ∃ candidate ∈ candidates, Passes plan maxFileSize candidate ∧
    ∃ order, entry = entryOf plan candidate order
  complete : ∀ candidate ∈ candidates, Passes plan maxFileSize candidate →
    ∃ entry ∈ found, Path.components entry.location = key candidate

theorem start_entries (candidates : List Candidate) :
    ∃ found : List FileEntry, start.entries plan maxFileSize (candidates.map .ok) = found.map .ok ∧
      Admitted plan maxFileSize candidates found := by
  obtain ⟨found, enumerated⟩ := entries_ok plan maxFileSize start candidates
  refine ⟨found, enumerated, ?_, ?_, ?_⟩
  · have apart := entries_apart plan maxFileSize start (candidates.map .ok)
    rw [enumerated, List.pairwise_map] at apart
    exact apart.imp fun differ => differ _ _ rfl rfl
  · intro entry member
    obtain ⟨candidate, order, present, passes, -, made⟩ := entries_source plan maxFileSize start _ entry
      (enumerated ▸ List.mem_map_of_mem member)
    exact ⟨candidate, by simpa using present, passes, order, made⟩
  · intro candidate member passes
    obtain ⟨entry, present, same⟩ := entries_complete plan maxFileSize start _ candidate
      (List.mem_map_of_mem member) passes List.not_mem_nil
    exact ⟨entry, by simpa [enumerated] using present, same⟩

end BlockSearch.Admission
