import BlockSearch.Proofs.Budget.Account

set_option autoImplicit false

namespace BlockSearch.Budget

structure Counters where
  maxFiles : UInt64
  maxFindings : UInt64
  files : UInt64
  findings : UInt64
deriving DecidableEq, Repr

structure Cells where
  counters : List Counters
  tokens : List Bool
deriving DecidableEq, Repr

structure Holder where
  counters : Nat
  token : Nat
deriving DecidableEq, Repr

structure Sharing where
  cells : Cells
  holders : List Holder
deriving DecidableEq, Repr

inductive Operation where
  | claim
  | record (count : UInt64)
  | cancel
deriving DecidableEq, Repr

-- The holders are numbered in the order in which they were made.
inductive Move where
  | copy (holder : Nat)
  | operate (holder : Nat) (operation : Operation)
deriving DecidableEq, Repr

def Operation.action : Operation → Action
  | .claim => .claim
  | .record count => .record count.toNat
  | .cancel => .cancel

def Move.action : Move → Option Action
  | .copy _ => none
  | .operate _ operation => some operation.action

def actions (moves : List Move) : List Action := moves.filterMap Move.action

namespace Counters

def claim (counters : Counters) : Bool × Counters :=
  let added := { counters with files := counters.files + 1 }
  if counters.files < counters.maxFiles then (true, added)
  else (false, { added with files := added.files - 1 })

def record (count : UInt64) (counters : Counters) : Bool × Counters :=
  let total := counters.findings + count
  (decide (counters.maxFindings ≤ total), { counters with findings := total })

def budget (counters : Counters) (cancelled : Bool) : Budget :=
  ⟨counters.maxFiles.toNat, counters.maxFindings.toNat, counters.files.toNat, counters.findings.toNat, cancelled⟩

theorem claim_budget (counters : Counters) (cancelled : Bool) :
    (counters.claim.1, counters.claim.2.budget cancelled) = (counters.budget cancelled).claim := by
  by_cases room : counters.files < counters.maxFiles
  · have less : (counters.budget cancelled).claimed < (counters.budget cancelled).maxFiles := UInt64.lt_iff_toNat_lt.mp room
    have next : (counters.files + 1).toNat = counters.files.toNat + 1 := by
      have bound := Nat.lt_of_le_of_lt less counters.maxFiles.toNat_lt
      rw [UInt64.toNat_add]
      exact Nat.mod_eq_of_lt bound
    rw [Budget.claim, if_pos less, claim, if_pos room, budget, next]
    rfl
  · have full : ¬ (counters.budget cancelled).claimed < (counters.budget cancelled).maxFiles :=
      fun less => room (UInt64.lt_iff_toNat_lt.mpr less)
    have back : counters.files + 1 - 1 = counters.files := UInt64.add_sub_cancel _ _
    rw [Budget.claim, if_neg full, claim, if_neg room, back]

theorem record_budget (counters : Counters) (count : UInt64) (cancelled : Bool) :
    ((counters.record count).1, (counters.record count).2.budget (cancelled || (counters.record count).1)) =
      (counters.budget cancelled).record count.toNat := by
  have total : (counters.findings + count).toNat = (counters.findings.toNat + count.toNat) % countSpan :=
    UInt64.toNat_add _ _
  have reached : decide (counters.maxFindings ≤ counters.findings + count) =
      decide (counters.maxFindings.toNat ≤ (counters.findings.toNat + count.toNat) % countSpan) := by
    rw [decide_eq_decide, UInt64.le_iff_toNat_le, total]
  rw [record, reached, budget, total]
  rfl

end Counters

namespace Cells

def seen (cells : Cells) (holder : Holder) : Option Budget :=
  match cells.counters[holder.counters]?, cells.tokens[holder.token]? with
  | some counters, some cancelled => some (counters.budget cancelled)
  | _, _ => none

def cancel (cells : Cells) (holder : Holder) : Cells := { cells with tokens := cells.tokens.set holder.token true }

def put (cells : Cells) (holder : Holder) (counters : Counters) : Cells :=
  { cells with counters := cells.counters.set holder.counters counters }

def operate (cells : Cells) (holder : Holder) : Operation → Option (Option Bool × Cells)
  | .claim => cells.counters[holder.counters]?.map fun counters =>
      (some counters.claim.1, cells.put holder counters.claim.2)
  | .record count => cells.counters[holder.counters]?.map fun counters =>
      let (exhausted, added) := counters.record count
      (some exhausted, if exhausted then (cells.put holder added).cancel holder else cells.put holder added)
  | .cancel => some (none, cells.cancel holder)

def opened (cells : Cells) (maxFiles maxFindings : UInt64) (token : Nat) : Sharing :=
  ⟨{ cells with counters := cells.counters ++ [⟨maxFiles, maxFindings, 0, 0⟩] }, [⟨cells.counters.length, token⟩]⟩

section Seen

variable {cells : Cells} {holder : Holder}

theorem seen_iff (budget : Budget) :
    cells.seen holder = some budget ↔ ∃ counters cancelled, cells.counters[holder.counters]? = some counters ∧
      cells.tokens[holder.token]? = some cancelled ∧ counters.budget cancelled = budget := by
  unfold seen
  cases cells.counters[holder.counters]? <;> cases cells.tokens[holder.token]? <;> simp

theorem operate_seen (budget : Budget) (sees : cells.seen holder = some budget) (operation : Operation) :
    ∃ after, cells.operate holder operation = some ((budget.act operation.action).1, after) ∧
      after.seen holder = some (budget.act operation.action).2 := by
  obtain ⟨counters, cancelled, found, token, rfl⟩ := (seen_iff budget).mp sees
  have within := (List.getElem?_eq_some_iff.mp found).1
  have inside := (List.getElem?_eq_some_iff.mp token).1
  have stored (added : Counters) : (cells.counters.set holder.counters added)[holder.counters]? = some added :=
    List.getElem?_set_self within
  have stopped : (cells.tokens.set holder.token true)[holder.token]? = some true := List.getElem?_set_self inside
  cases operation with
  | claim =>
      have same := counters.claim_budget cancelled
      refine ⟨cells.put holder counters.claim.2, ?_, (seen_iff _).mpr ⟨_, _, stored _, token, ?_⟩⟩
      · simp [operate, found, Operation.action, act, ← same]
      · simp [Operation.action, act, ← same]
  | record count =>
      have same := counters.record_budget count cancelled
      cases exhausted : (counters.record count).1 with
      | true =>
          rw [exhausted, Bool.or_true] at same
          refine ⟨(cells.put holder (counters.record count).2).cancel holder, ?_,
            (seen_iff _).mpr ⟨_, _, stored _, stopped, ?_⟩⟩
          · simp [operate, found, Operation.action, act, exhausted, ← same]
          · simp [Operation.action, act, ← same]
      | false =>
          rw [exhausted, Bool.or_false] at same
          refine ⟨cells.put holder (counters.record count).2, ?_, (seen_iff _).mpr ⟨_, _, stored _, token, ?_⟩⟩
          · simp [operate, found, Operation.action, act, exhausted, ← same]
          · simp [Operation.action, act, ← same]
  | cancel => exact ⟨cells.cancel holder, rfl, (seen_iff _).mpr ⟨_, _, found, stopped, rfl⟩⟩

end Seen

end Cells

namespace Sharing

def move (sharing : Sharing) : Move → Option (Option Bool × Sharing)
  | .copy number => sharing.holders[number]?.map fun holder =>
      (none, { sharing with holders := sharing.holders ++ [holder] })
  | .operate number operation => do
      let holder ← sharing.holders[number]?
      let (told, cells) ← sharing.cells.operate holder operation
      some (told, { sharing with cells := cells })

def run (sharing : Sharing) : List Move → Option (List (Option Bool × Sharing))
  | [] => some []
  | first :: rest => do
      let step ← sharing.move first
      let later ← run step.2 rest
      some (step :: later)

end Sharing

def Named : Nat → List Move → Prop
  | _, [] => True
  | held, .copy number :: rest => number < held ∧ Named (held + 1) rest
  | held, .operate number _ :: rest => number < held ∧ Named held rest

-- All holders know the same cells, and these show what was done.
structure Sharing.InCommon (maxFiles maxFindings : Nat) (first : Holder) (done : List Action)
    (sharing : Sharing) : Prop where
  same : ∀ holder ∈ sharing.holders, holder = first
  account : ∃ budget, sharing.cells.seen first = some budget ∧ Reflects maxFiles maxFindings done budget

def copies (moves : List Move) : Nat := moves.countP fun move => move.action.isNone

theorem actions_append (moves others : List Move) : actions (moves ++ others) = actions moves ++ actions others :=
  List.filterMap_append

theorem actions_cons (move : Move) (moves : List Move) : actions (move :: moves) = move.action.toList ++ actions moves := by
  cases move <;> rfl

section Run

variable {maxFiles maxFindings : Nat} {first : Holder} {done : List Action} {sharing : Sharing}
  (common : sharing.InCommon maxFiles maxFindings first done)
include common

theorem Sharing.copy_in_common (number : Nat) (names : number < sharing.holders.length) :
    ∃ after, sharing.move (.copy number) = some (none, after) ∧ after.InCommon maxFiles maxFindings first done ∧
      after.holders.length = sharing.holders.length + 1 := by
  have found := List.getElem?_eq_getElem names
  refine ⟨{ sharing with holders := sharing.holders ++ [sharing.holders[number]] }, by rw [move, found]; rfl,
    ⟨?_, common.account⟩, List.length_append⟩
  intro holder member
  rcases List.mem_append.mp member with before | copied
  · exact common.same holder before
  · rw [List.mem_singleton.mp copied]
    exact common.same _ (List.getElem_mem names)

theorem Sharing.operate_in_common (number : Nat) (operation : Operation) (names : number < sharing.holders.length)
    (small : findings (done ++ [operation.action]) < countSpan) :
    ∃ after, sharing.move (.operate number operation) = some (answer maxFiles maxFindings done operation.action, after) ∧
      after.InCommon maxFiles maxFindings first (done ++ [operation.action]) ∧
      after.holders.length = sharing.holders.length := by
  have found := List.getElem?_eq_getElem names
  rw [common.same _ (List.getElem_mem names)] at found
  obtain ⟨budget, sees, reflects⟩ := common.account
  obtain ⟨told, still⟩ := act_reflects reflects operation.action small
  obtain ⟨cells, operated, seen⟩ := Cells.operate_seen budget sees operation
  refine ⟨{ sharing with cells := cells }, ?_, ⟨common.same, _, seen, still⟩, rfl⟩
  simp [move, found, operated, told]

theorem Sharing.move_in_common (move : Move) (rest : List Move) (named : Named sharing.holders.length (move :: rest))
    (small : findings (done ++ move.action.toList) < countSpan) :
    ∃ after, sharing.move move = some (move.action.bind (answer maxFiles maxFindings done), after) ∧
      after.InCommon maxFiles maxFindings first (done ++ move.action.toList) ∧ Named after.holders.length rest ∧
      after.holders.length = sharing.holders.length + copies [move] := by
  cases move with
  | copy number =>
      obtain ⟨after, moved, kept, length⟩ := copy_in_common common number named.1
      exact ⟨after, moved, (List.append_nil done).symm ▸ kept, length ▸ named.2, length⟩
  | operate number operation =>
      obtain ⟨after, moved, kept, length⟩ := operate_in_common common number operation named.1 small
      exact ⟨after, moved, kept, length ▸ named.2, length⟩

theorem Sharing.run_in_common (moves : List Move) (named : Named sharing.holders.length moves)
    (small : findings (done ++ actions moves) < countSpan) :
    ∃ log, sharing.run moves = some log ∧ log.length = moves.length ∧
      ∀ (i : Nat) (told : Option Bool) (after : Sharing), log[i]? = some (told, after) → ∃ move, moves[i]? = some move ∧
        told = move.action.bind (answer maxFiles maxFindings (done ++ actions (moves.take i))) ∧
        after.InCommon maxFiles maxFindings first (done ++ actions (moves.take (i + 1))) ∧
        after.holders.length = sharing.holders.length + copies (moves.take (i + 1)) := by
  induction moves generalizing done sharing with
  | nil => exact ⟨[], rfl, rfl, fun i told after found => by simp at found⟩
  | cons move rest ih =>
      rw [actions_cons, ← List.append_assoc] at small
      have within : findings (done ++ move.action.toList) < countSpan := by
        rw [findings_append] at small
        exact Nat.lt_of_le_of_lt (Nat.le_add_right _ _) small
      obtain ⟨next, moved, kept, later, copied⟩ := move_in_common common move rest named within
      obtain ⟨log, ran, length, steps⟩ := ih kept later small
      refine ⟨(move.action.bind (answer maxFiles maxFindings done), next) :: log, by simp [run, moved, ran],
        congrArg (· + 1) length, ?_⟩
      rintro (_ | i) told after found
      · obtain ⟨rfl, rfl⟩ := Prod.mk.inj (Option.some.inj found)
        refine ⟨move, rfl, by simp [actions], ?_, copied⟩
        rwa [List.take_succ_cons, actions_cons, List.take_zero, actions, List.filterMap_nil, List.append_nil]
      · obtain ⟨other, here, told, common, held⟩ := steps i told after found
        refine ⟨other, here, ?_, ?_, ?_⟩
        · rw [told, List.take_succ_cons, actions_cons, List.append_assoc]
        · rw [List.take_succ_cons, actions_cons, ← List.append_assoc]
          exact common
        · have counted : copies (move :: rest.take (i + 1)) = copies [move] + copies (rest.take (i + 1)) := by
            rw [copies, ← List.singleton_append, List.countP_append, copies, copies]
          rw [held, copied, List.take_succ_cons, counted, Nat.add_assoc]

end Run

def Told (log : List (Option Bool × Sharing)) (i : Nat) (told : Option Bool) : Prop :=
  (log[i]?).map Prod.fst = some told

def Shown (log : List (Option Bool × Sharing)) (i : Nat) (holder : Holder) (budget : Budget) : Prop :=
  ∃ told sharing, log[i]? = some (told, sharing) ∧ holder ∈ sharing.holders ∧ sharing.cells.seen holder = some budget

def Stops (moves : List Move) (log : List (Option Bool × Sharing)) (i : Nat) : Prop :=
  ∃ number, moves[i]? = some (.operate number .cancel) ∨
    ∃ count, moves[i]? = some (.operate number (.record count)) ∧ Told log i (some true)

structure Accounted (maxFiles maxFindings : Nat) (moves : List Move) (log : List (Option Bool × Sharing)) : Prop where
  length : log.length = moves.length
  claimed : ∀ i number, moves[i]? = some (.operate number .claim) →
    Told log i (some (decide (claims (actions (moves.take i)) < maxFiles)))
  recorded : ∀ i number count, moves[i]? = some (.operate number (.record count)) →
    Told log i (some (decide (maxFindings ≤ findings (actions (moves.take (i + 1))))))
  seen : ∀ (i : Nat) (told : Option Bool) (sharing : Sharing), log[i]? = some (told, sharing) →
    sharing.holders.length = 1 + copies (moves.take (i + 1)) ∧ ∀ holder ∈ sharing.holders,
      ∃ budget, sharing.cells.seen holder = some budget ∧
        budget.claimed = min maxFiles (claims (actions (moves.take (i + 1)))) ∧
        budget.recorded = findings (actions (moves.take (i + 1))) ∧
        budget.remaining = maxFindings - findings (actions (moves.take (i + 1))) ∧
        (budget.cancelled = true ↔ ∃ j ≤ i, Stops moves log j)
  exhausted : ∀ i j number other count more, i ≤ j → moves[i]? = some (.operate number (.record count)) →
    Told log i (some true) → moves[j]? = some (.operate other (.record more)) → Told log j (some true)
  cancelled : ∀ i j holder other budget later, i ≤ j → Shown log i holder budget → budget.cancelled = true →
    Shown log j other later → later.cancelled = true

theorem split_actions (moves : List Move) (front back : List Action) (action : Action)
    (split : actions moves = front ++ action :: back) :
    ∃ j move, moves[j]? = some move ∧ move.action = some action ∧ actions (moves.take j) = front := by
  induction moves generalizing front with
  | nil => simp [actions] at split
  | cons move rest ih =>
      have further (front : List Action) (behind : actions rest = front ++ action :: back) :
          ∃ j other, (move :: rest)[j]? = some other ∧ other.action = some action ∧
            actions ((move :: rest).take j) = move.action.toList ++ front := by
        obtain ⟨j, other, found, acts, rfl⟩ := ih front behind
        exact ⟨j + 1, other, found, acts, by rw [List.take_succ_cons, actions_cons]⟩
      rw [actions_cons] at split
      cases here : move.action with
      | none =>
          rw [here] at split further
          exact further front split
      | some first =>
          rw [here] at split further
          cases front with
          | nil => exact ⟨0, move, rfl, here.trans (congrArg some (List.cons.inj split).1), rfl⟩
          | cons other front =>
              obtain ⟨rfl, behind⟩ := List.cons.inj split
              exact further front behind

theorem actions_split (moves : List Move) (j : Nat) (move : Move) (action : Action) (found : moves[j]? = some move)
    (acts : move.action = some action) :
    actions moves = actions (moves.take j) ++ action :: actions (moves.drop (j + 1)) := by
  obtain ⟨within, rfl⟩ := List.getElem?_eq_some_iff.mp found
  have behind : moves.drop j = moves[j] :: moves.drop (j + 1) := List.drop_eq_getElem_cons within
  calc actions moves = actions (moves.take j ++ moves.drop j) := by rw [List.take_append_drop]
    _ = actions (moves.take j) ++ actions (moves[j] :: moves.drop (j + 1)) := by rw [actions_append, behind]
    _ = actions (moves.take j) ++ action :: actions (moves.drop (j + 1)) := by rw [actions_cons, acts]; rfl

theorem findings_take_le (moves : List Move) {i j : Nat} (upto : i ≤ j) :
    findings (actions (moves.take i)) ≤ findings (actions (moves.take j)) := by
  obtain ⟨more, same⟩ := List.take_prefix_take_left upto (l := moves)
  rw [← same, actions_append, findings_append]
  exact Nat.le_add_right _ _

def Answered (maxFiles maxFindings : Nat) (moves : List Move) (log : List (Option Bool × Sharing)) : Prop :=
  ∀ i move, moves[i]? = some move → Told log i (move.action.bind (answer maxFiles maxFindings (actions (moves.take i))))

section Answers

variable {maxFiles maxFindings : Nat} {moves : List Move} {log : List (Option Bool × Sharing)}
  (told : Answered maxFiles maxFindings moves log)
include told

theorem record_told (i number : Nat) (count : UInt64) (here : moves[i]? = some (.operate number (.record count))) :
    Told log i (some (decide (maxFindings ≤ findings (actions (moves.take (i + 1)))))) := by
  have more : findings (actions (moves.take (i + 1))) = findings (actions (moves.take i)) + count.toNat := by
    rw [List.take_add_one, here, actions_append, findings_append]
    rfl
  rw [more]
  exact told i _ here

theorem called_off_iff_stops (i : Nat) :
    CalledOff maxFiles maxFindings (actions (moves.take (i + 1))) ↔ ∃ j ≤ i, Stops moves log j := by
  -- Of the first moves, those before one of them are the same.
  have before (j : Nat) (upto : j ≤ i) : (moves.take (i + 1)).take j = moves.take j := by
    rw [List.take_take, Nat.min_eq_left (Nat.le_succ_of_le upto)]
  constructor
  · rintro ⟨front, action, back, split, stops⟩
    obtain ⟨j, move, found, acts, rfl⟩ := split_actions _ front back action split
    rw [List.getElem?_take, Option.ite_none_right_eq_some] at found
    have upto : j ≤ i := Nat.le_of_lt_succ found.1
    have answered := told j move found.2
    rw [before j upto] at stops
    refine ⟨j, upto, ?_⟩
    cases move with
    | copy number => cases acts
    | operate number operation =>
        obtain rfl := Option.some.inj acts
        refine ⟨number, ?_⟩
        cases operation with
        | cancel => exact .inl found.2
        | claim => simp [Operation.action] at stops
        | record count => exact .inr ⟨count, found.2, (stops.resolve_left nofun).2 ▸ answered⟩
  · rintro ⟨j, upto, number, stops⟩
    have inside (move : Move) (found : moves[j]? = some move) : (moves.take (i + 1))[j]? = some move :=
      (List.getElem?_take_of_lt (Nat.lt_succ_of_le upto)).trans found
    rcases stops with cancels | ⟨count, records, reported⟩
    · exact ⟨_, .cancel, _, actions_split _ j _ _ (inside _ cancels) rfl, .inl rfl⟩
    · refine ⟨_, .record count.toNat, _, actions_split _ j _ _ (inside _ records) rfl, .inr ⟨⟨_, rfl⟩, ?_⟩⟩
      rw [before j upto]
      exact Option.some.inj ((told j _ records).symm.trans reported)

end Answers

theorem opened_in_common (cells : Cells) (maxFiles maxFindings : UInt64) (token : Nat)
    (free : cells.tokens[token]? = some false) :
    (cells.opened maxFiles maxFindings token).InCommon maxFiles.toNat maxFindings.toNat
      ⟨cells.counters.length, token⟩ [] where
  same := fun holder member => List.mem_singleton.mp member
  account := by
    refine ⟨_, (Cells.seen_iff _).mpr ⟨⟨maxFiles, maxFindings, 0, 0⟩, false, ?_, free, rfl⟩, start_reflects _ _⟩
    simp [Cells.opened]

theorem holders_accounted (cells : Cells) (maxFiles maxFindings : UInt64) (token : Nat) (moves : List Move)
    (free : cells.tokens[token]? = some false) (named : Named 1 moves) (small : findings (actions moves) < countSpan) :
    ∃ log, (cells.opened maxFiles maxFindings token).run moves = some log ∧
      Accounted maxFiles.toNat maxFindings.toNat moves log := by
  obtain ⟨log, ran, length, steps⟩ :=
    Sharing.run_in_common (opened_in_common cells maxFiles maxFindings token free) moves named small
  simp only [List.nil_append] at steps
  have told : Answered maxFiles.toNat maxFindings.toNat moves log := by
    intro i move here
    have within : i < log.length := length ▸ (List.getElem?_eq_some_iff.mp here).1
    have found := List.getElem?_eq_getElem within
    obtain ⟨other, there, answered, -⟩ := steps i _ _ found
    obtain rfl := Option.some.inj (here.symm.trans there)
    rw [Told, found, ← answered]
    rfl
  have seen (i : Nat) (told' : Option Bool) (sharing : Sharing) (found : log[i]? = some (told', sharing)) :
      sharing.holders.length = 1 + copies (moves.take (i + 1)) ∧ ∀ holder ∈ sharing.holders,
        ∃ budget, sharing.cells.seen holder = some budget ∧
          budget.claimed = min maxFiles.toNat (claims (actions (moves.take (i + 1)))) ∧
          budget.recorded = findings (actions (moves.take (i + 1))) ∧
          budget.remaining = maxFindings.toNat - findings (actions (moves.take (i + 1))) ∧
          (budget.cancelled = true ↔ ∃ j ≤ i, Stops moves log j) := by
    obtain ⟨-, -, -, common, held⟩ := steps i told' sharing found
    obtain ⟨budget, sees, reflects⟩ := common.account
    refine ⟨held, fun holder member =>
      ⟨budget, common.same holder member ▸ sees, reflects.claimed, reflects.recorded, ?_, ?_⟩⟩
    · rw [remaining, reflects.findingBound, reflects.recorded]
    · rw [reflects.cancelled, called_off_iff_stops told i]
  refine ⟨log, ran, length, fun i number here => told i _ here, record_told told, seen, ?_, ?_⟩
  · intro i j number other count more upto here reported there
    have enough := of_decide_eq_true (Option.some.inj (Option.some.inj ((record_told told i _ _ here).symm.trans reported)))
    have further := Nat.le_trans enough (findings_take_le moves (Nat.succ_le_succ upto))
    have again := record_told told j _ _ there
    rwa [decide_eq_true further] at again
  · rintro i j holder other budget later upto ⟨answered, sharing, found, member, sees⟩ cancelled
      ⟨answered', sharing', found', member', sees'⟩
    obtain ⟨first, same, -, -, -, stopped⟩ := (seen i _ _ found).2 holder member
    obtain ⟨second, same', -, -, -, still⟩ := (seen j _ _ found').2 other member'
    obtain rfl := Option.some.inj (sees.symm.trans same)
    obtain rfl := Option.some.inj (sees'.symm.trans same')
    obtain ⟨k, earlier, stops⟩ := stopped.mp cancelled
    exact still.mpr ⟨k, Nat.le_trans earlier upto, stops⟩

-- A copy of the holder claims what is left, a claim too many is taken back, and a record of nothing behind the one that went
-- beyond the bound is told of it again; another budget has its own counters.
theorem holders_accounted_beyond_bounds :
    let cells : Cells := ⟨[⟨9, 9, 0, 0⟩], [true, false]⟩
    let moves : List Move := [.operate 0 .claim, .copy 0, .operate 1 .claim, .operate 1 (.record 2), .operate 0 (.record 3),
      .copy 1, .operate 2 (.record 0)]
    cells.tokens[1]? = some false ∧ Named 1 moves ∧ findings (actions moves) < countSpan ∧
      ∃ log, (cells.opened 1 4 1).run moves = some log ∧ Accounted 1 4 moves log ∧ Stops moves log 4 ∧
        log.map Prod.fst = [some true, none, some false, some false, some true, none, some true] := by
  intro cells moves
  have free : cells.tokens[1]? = some false := rfl
  have named : Named 1 moves := by simp [moves, Named]
  have small : findings (actions moves) < countSpan := by decide
  obtain ⟨log, ran, accounted⟩ := holders_accounted cells 1 4 1 moves free named small
  have told : ((cells.opened 1 4 1).run moves).map (List.map Prod.fst) =
      some [some true, none, some false, some false, some true, none, some true] := by decide +kernel
  rw [ran, Option.map_some, Option.some.injEq] at told
  exact ⟨free, named, small, log, ran, accounted, ⟨0, .inr ⟨3, rfl, accounted.recorded 4 0 3 rfl⟩⟩, told⟩

end BlockSearch.Budget
