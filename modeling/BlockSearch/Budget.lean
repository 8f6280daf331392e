import BlockSearch.Text.Basic

set_option autoImplicit false

namespace BlockSearch

structure Budget where
  maxFiles : Nat
  maxFindings : Nat
  claimed : Nat
  recorded : Nat
  cancelled : Bool
deriving DecidableEq, Repr

namespace Budget

def start (maxFiles maxFindings : Nat) (cancelled : Bool) : Budget := ⟨maxFiles, maxFindings, 0, 0, cancelled⟩

def claim (budget : Budget) : Bool × Budget :=
  if budget.claimed < budget.maxFiles then (true, { budget with claimed := budget.claimed + 1 })
  else (false, budget)

def remaining (budget : Budget) : Nat := budget.maxFindings - budget.recorded

-- Findings are counted in 64 bits, so the count begins again from zero behind the largest of them.
def countSpan : Nat := 18446744073709551616

def record (count : Nat) (budget : Budget) : Bool × Budget :=
  let recorded := (budget.recorded + count) % countSpan
  let exhausted := decide (budget.maxFindings ≤ recorded)
  (exhausted, { budget with recorded := recorded, cancelled := budget.cancelled || exhausted })

def cancel (budget : Budget) : Budget := { budget with cancelled := true }

inductive Action where
  | claim
  | record (count : Nat)
  | cancel
deriving DecidableEq, Repr

def act (budget : Budget) : Action → Option Bool × Budget
  | .claim => (some budget.claim.1, budget.claim.2)
  | .record count => (some (budget.record count).1, (budget.record count).2)
  | .cancel => (none, budget.cancel)

def run (budget : Budget) : List Action → List (Option Bool × Budget)
  | [] => []
  | action :: rest => budget.act action :: run (budget.act action).2 rest

end Budget

end BlockSearch
