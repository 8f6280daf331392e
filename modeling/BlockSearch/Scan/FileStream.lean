import BlockSearch.Scan.Stream

/-!
The files of a search while several of them are read at once. As many files as there are workers are given out before the
first result is awaited, so a fault that is met on the way is told before what these files hold. Files come back in the
order in which they were given out.
-/

set_option autoImplicit false

namespace BlockSearch

-- What is still to be discovered, the files that are out with the workers, and whether there are more to give out. A
-- fault is kept until it is told.
structure FileStream where
  workers : Nat
  discovery : Stream
  inFlight : List FileEntry
  finished : Bool
  fault : Option WalkFault
deriving Repr

namespace FileStream

def start (workers : Nat) (discovery : Stream) : FileStream := ⟨max workers 1, discovery, [], false, none⟩

-- Gives out files as long as a worker is free. The file that is one too many for the budget is lost.
def giveOut (workers : Nat) (budget : Budget) (inFlight : List FileEntry) : Stream → FileStream × Budget
  | [] => (⟨workers, [], inFlight, decide (inFlight.length < workers), none⟩, budget)
  | item :: rest =>
      if workers ≤ inFlight.length then (⟨workers, item :: rest, inFlight, false, none⟩, budget)
      else if budget.cancelled then (⟨workers, item :: rest, inFlight, true, none⟩, budget)
      else match item with
        | .error fault => (⟨workers, rest, inFlight, false, some fault⟩, budget)
        | .ok file =>
            match budget.claim with
            | (false, budget) => (⟨workers, rest, inFlight, true, none⟩, budget)
            | (true, budget) => giveOut workers budget (inFlight ++ [file]) rest

def fill (stream : FileStream) (budget : Budget) : FileStream × Budget :=
  if stream.finished || stream.fault.isSome then (stream, budget)
  else giveOut stream.workers budget stream.inFlight stream.discovery

def left (stream : FileStream) : Nat :=
  stream.discovery.length + stream.inFlight.length + stream.fault.toList.length

theorem give_out_left (workers : Nat) (budget : Budget) (inFlight : List FileEntry) (discovery : Stream) :
    (giveOut workers budget inFlight discovery).1.left ≤ discovery.length + inFlight.length := by
  induction discovery generalizing budget inFlight with
  | nil => exact Nat.le_refl _
  | cons item rest ih =>
      unfold giveOut
      by_cases busy : workers ≤ inFlight.length
      · rw [if_pos busy]
        exact Nat.le_refl _
      · rw [if_neg busy]
        by_cases stopped : budget.cancelled
        · rw [if_pos stopped]
          exact Nat.le_refl _
        · rw [if_neg stopped]
          cases item with
          | error fault =>
              simp only [left, Option.toList_some, List.length_cons, List.length_nil]
              omega
          | ok file =>
              obtain ⟨claimed, after⟩ := budget.claim
              cases claimed with
              | false =>
                  simp only [left, Option.toList_none, List.length_cons, List.length_nil]
                  omega
              | true =>
                  have later := ih after (inFlight ++ [file])
                  simp only [List.length_append, List.length_cons, List.length_nil] at later ⊢
                  omega

theorem fill_left (stream : FileStream) (budget : Budget) : (stream.fill budget).1.left ≤ stream.left := by
  unfold fill
  split
  · exact Nat.le_refl _
  · have given := give_out_left stream.workers budget stream.inFlight stream.discovery
    exact Nat.le_trans given (Nat.le_add_right _ _)

theorem taken_left (stream : FileStream) (file : FileEntry) (others : List FileEntry)
    (out : stream.inFlight = file :: others) : left { stream with inFlight := others } < stream.left := by
  simp only [left, out, List.length_cons]
  omega

-- The next file that can be read, or the next fault; the stream and the budget afterwards. A file that cannot be read is
-- passed over. Once the scan is called off, what is out is awaited and dropped.
def next (scan : FileEntry → Option Scanned) (budget : Budget) (stream : FileStream) :
    Option (Except WalkFault Scanned) × FileStream × Budget :=
  if budget.cancelled then (none, { stream with inFlight := [] }, budget)
  else
    match _filled : stream.fill budget with
    | (filled, after) =>
        match filled.fault with
        | some fault => (some (.error fault), { filled with fault := none }, after)
        | none =>
            match _out : filled.inFlight with
            | [] => (none, filled, after)
            | file :: others =>
                match scan file with
                | some scanned => (some (.ok scanned), { filled with inFlight := others }, after)
                | none => next scan after { filled with inFlight := others }
termination_by stream.left
decreasing_by
  have kept := fill_left stream budget
  rw [_filled] at kept
  exact Nat.lt_of_lt_of_le (taken_left filled file others _out) kept

theorem next_left (scan : FileEntry → Option Scanned) (budget : Budget) (stream : FileStream)
    (item : Except WalkFault Scanned) (rest : FileStream) (after : Budget)
    (given : stream.next scan budget = (some item, rest, after)) : rest.left < stream.left := by
  fun_induction next scan budget stream with
  | case1 budget stream live => cases given
  | case2 budget stream live filled spent filling fault met =>
      have kept := fill_left stream budget
      simp only [Prod.mk.injEq] at given
      rw [filling] at kept
      rw [← given.2.1]
      apply Nat.lt_of_lt_of_le _ kept
      simp [left, met]
  | case3 budget stream live filled spent filling clear idle => cases given
  | case4 budget stream live filled spent filling clear file others out scanned readable =>
      have kept := fill_left stream budget
      simp only [Prod.mk.injEq] at given
      rw [filling] at kept
      rw [← given.2.1]
      exact Nat.lt_of_lt_of_le (taken_left filled file others out) kept
  | case5 budget stream live filled spent filling clear file others out unreadable ih =>
      have kept := fill_left stream budget
      rw [filling] at kept
      exact Nat.lt_trans (ih given) (Nat.lt_of_lt_of_le (taken_left filled file others out) kept)

end FileStream

end BlockSearch
