import BlockSearch.Budget
import Mathlib.Algebra.Ring.Nat

set_option autoImplicit false

namespace BlockSearch.Budget

def claims (actions : List Action) : Nat := actions.count .claim

def Action.findings : Action → Nat
  | .record count => count
  | _ => 0

def findings (actions : List Action) : Nat := (actions.map Action.findings).sum

theorem claims_append (actions others : List Action) : claims (actions ++ others) = claims actions + claims others :=
  List.count_append

theorem findings_append (actions others : List Action) :
    findings (actions ++ others) = findings actions + findings others := by
  rw [findings, List.map_append, List.sum_append, findings, findings]

def answer (maxFiles maxFindings : Nat) (done : List Action) : Action → Option Bool
  | .claim => some (decide (claims done < maxFiles))
  | .record count => some (decide (maxFindings ≤ findings done + count))
  | .cancel => none

-- An action calls the scan off itself, or it is told that the findings have reached their bound.
def CalledOff (maxFiles maxFindings : Nat) (done : List Action) : Prop :=
  ∃ front action back, done = front ++ action :: back ∧
    (action = .cancel ∨ (∃ count, action = .record count) ∧ answer maxFiles maxFindings front action = some true)

structure Reflects (maxFiles maxFindings : Nat) (done : List Action) (budget : Budget) : Prop where
  fileBound : budget.maxFiles = maxFiles
  findingBound : budget.maxFindings = maxFindings
  claimed : budget.claimed = min maxFiles (claims done)
  recorded : budget.recorded = findings done
  cancelled : budget.cancelled = true ↔ CalledOff maxFiles maxFindings done

variable (maxFiles maxFindings : Nat)

theorem start_reflects : Reflects maxFiles maxFindings [] (start maxFiles maxFindings false) where
  fileBound := rfl
  findingBound := rfl
  claimed := (Nat.min_zero _).symm
  recorded := rfl
  cancelled := by simp [start, CalledOff]

theorem called_off_further (done : List Action) (action : Action) :
    CalledOff maxFiles maxFindings (done ++ [action]) ↔
      CalledOff maxFiles maxFindings done ∨
        (action = .cancel ∨ (∃ count, action = .record count) ∧ answer maxFiles maxFindings done action = some true) := by
  constructor
  · rintro ⟨front, other, back, split, stops⟩
    rcases List.eq_nil_or_concat back with rfl | ⟨more, last, rfl⟩
    · obtain ⟨rfl, same⟩ := List.append_inj' split rfl
      obtain rfl := List.singleton_inj.mp same
      exact .inr stops
    · rw [List.concat_eq_append, ← List.cons_append, ← List.append_assoc] at split
      exact .inl ⟨front, other, more, (List.append_inj' split rfl).1, stops⟩
  · rintro (⟨front, other, back, rfl, stops⟩ | stops)
    · exact ⟨front, other, back ++ [action], by rw [List.append_assoc, List.cons_append], stops⟩
    · exact ⟨done, action, [], rfl, stops⟩

variable {maxFiles maxFindings}

theorem act_reflects {done : List Action} {budget : Budget} (reflects : Reflects maxFiles maxFindings done budget)
    (action : Action) (small : findings (done ++ [action]) < countSpan) :
    (budget.act action).1 = answer maxFiles maxFindings done action ∧
      Reflects maxFiles maxFindings (done ++ [action]) (budget.act action).2 := by
  have further := called_off_further maxFiles maxFindings done action
  have claimed := reflects.claimed
  cases action with
  | claim =>
      have more : claims (done ++ [.claim]) = claims done + 1 := claims_append done [.claim]
      have same : findings (done ++ [.claim]) = findings done := findings_append done [.claim]
      have stays : budget.cancelled = true ↔ CalledOff maxFiles maxFindings (done ++ [.claim]) := by
        simp [further, reflects.cancelled]
      rw [act, claim, reflects.fileBound]
      by_cases room : claims done < maxFiles
      · have free : budget.claimed < maxFiles := by omega
        rw [if_pos free]
        refine ⟨by simp [answer, room], rfl, reflects.findingBound, ?_, reflects.recorded.trans same.symm, stays⟩
        dsimp only
        omega
      · have full : ¬ budget.claimed < maxFiles := by omega
        rw [if_neg full]
        refine ⟨by simp [answer, room], reflects.fileBound, reflects.findingBound, ?_,
          reflects.recorded.trans same.symm, stays⟩
        dsimp only
        omega
  | record count =>
      have same : claims (done ++ [.record count]) = claims done := claims_append done [.record count]
      have more : findings (done ++ [.record count]) = findings done + count := findings_append done [.record count]
      have total : (budget.recorded + count) % countSpan = findings done + count := by
        rw [reflects.recorded]
        exact Nat.mod_eq_of_lt (more ▸ small)
      refine ⟨?_, reflects.fileBound, reflects.findingBound, same ▸ claimed, total.trans more.symm, ?_⟩
      · simp [act, record, answer, total, reflects.findingBound]
      · rw [further, ← reflects.cancelled]
        simp [act, record, answer, total, reflects.findingBound]
  | cancel =>
      have same : claims (done ++ [.cancel]) = claims done := claims_append done [.cancel]
      have none : findings (done ++ [.cancel]) = findings done := findings_append done [.cancel]
      refine ⟨rfl, reflects.fileBound, reflects.findingBound, same ▸ claimed, reflects.recorded.trans none.symm, ?_⟩
      simp [act, cancel, further]

end BlockSearch.Budget
