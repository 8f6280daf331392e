import BlockSearch.Scan.FileStream

set_option autoImplicit false

namespace BlockSearch

namespace Stream

variable (scan : FileEntry → Option Scanned) (budget : Budget) (file : FileEntry) (rest : Stream)

theorem next_stopped (stream : Stream) (stopped : budget.cancelled = true) :
    next scan budget stream = (none, stream, budget) := by
  cases stream with
  | nil => rfl
  | cons item rest => simp [next, stopped]

theorem next_fault (live : budget.cancelled = false) (fault : WalkFault) :
    next scan budget (.error fault :: rest) = (some (.error fault), rest, budget) := by
  simp [next, live]

theorem next_spent (live : budget.cancelled = false) (spent : ¬ budget.claimed < budget.maxFiles) :
    next scan budget (.ok file :: rest) = (none, [], budget) := by
  simp [next, live, Budget.claim, spent]

theorem next_read (live : budget.cancelled = false) (scanned : Scanned) (room : budget.claimed < budget.maxFiles)
    (readable : scan file = some scanned) :
    next scan budget (.ok file :: rest) =
      (some (.ok scanned), rest, { budget with claimed := budget.claimed + 1 }) := by
  simp [next, live, Budget.claim, room, readable]

theorem next_skip (live : budget.cancelled = false) (room : budget.claimed < budget.maxFiles)
    (unreadable : scan file = none) :
    next scan budget (.ok file :: rest) = next scan { budget with claimed := budget.claimed + 1 } rest := by
  simp [next, live, Budget.claim, room, unreadable]

end Stream

namespace FileStream

variable (scan : FileEntry → Option Scanned) (budget : Budget)

theorem next_eq (stream : FileStream) :
    stream.next scan budget =
      if budget.cancelled then (none, { stream with inFlight := [] }, budget)
      else
        match (stream.fill budget).1.fault with
        | some fault => (some (.error fault), { (stream.fill budget).1 with fault := none }, (stream.fill budget).2)
        | none =>
            match (stream.fill budget).1.inFlight with
            | [] => (none, (stream.fill budget).1, (stream.fill budget).2)
            | file :: others =>
                match scan file with
                | some scanned =>
                    (some (.ok scanned), { (stream.fill budget).1 with inFlight := others }, (stream.fill budget).2)
                | none => next scan (stream.fill budget).2 { (stream.fill budget).1 with inFlight := others } := by
  rw [next]
  split
  · rfl
  · split
    rename_i filled after filling
    rw [filling]
    obtain ⟨workers, discovery, inFlight, finished, fault⟩ := filled
    cases fault with
    | some fault => rfl
    | none =>
        cases inFlight with
        | nil => rfl
        | cons file others => rfl

theorem give_out_busy (workers : Nat) (inFlight : List FileEntry) (discovery : Stream)
    (busy : workers ≤ inFlight.length) :
    giveOut workers budget inFlight discovery = (⟨workers, discovery, inFlight, false, none⟩, budget) := by
  cases discovery with
  | nil => simp [giveOut, busy]
  | cons item rest => simp [giveOut, busy]

def alone (discovery : Stream) : FileStream := ⟨1, discovery, [], false, none⟩

def ended (discovery : Stream) : FileStream := ⟨1, discovery, [], true, none⟩

section Alone

variable (file : FileEntry) (rest : Stream)

theorem next_stopped (discovery : Stream) (stopped : budget.cancelled = true) :
    (alone discovery).next scan budget = (none, alone discovery, budget) := by
  rw [next_eq, if_pos stopped]
  rfl

theorem next_ended (discovery : Stream) : (ended discovery).next scan budget = (none, ended discovery, budget) := by
  rw [next_eq]
  split
  · rfl
  · rfl

variable (live : budget.cancelled = false)
include live

theorem next_nil : (alone []).next scan budget = (none, ended [], budget) := by
  rw [next_eq, live]
  rfl

theorem next_fault (fault : WalkFault) :
    (alone (.error fault :: rest)).next scan budget = (some (.error fault), alone rest, budget) := by
  have filling : (alone (.error fault :: rest)).fill budget = (⟨1, rest, [], false, some fault⟩, budget) := by
    simp [fill, alone, giveOut, live]
  rw [next_eq, live, filling]
  rfl

theorem next_spent (spent : ¬ budget.claimed < budget.maxFiles) :
    (alone (.ok file :: rest)).next scan budget = (none, ended rest, budget) := by
  have filling : (alone (.ok file :: rest)).fill budget = (ended rest, budget) := by
    simp [fill, alone, ended, giveOut, live, Budget.claim, spent]
  rw [next_eq, live, filling]
  rfl

theorem fill_one (room : budget.claimed < budget.maxFiles) :
    (alone (.ok file :: rest)).fill budget =
      (⟨1, rest, [file], false, none⟩, { budget with claimed := budget.claimed + 1 }) := by
  rw [← give_out_busy _ 1 [file] rest (Nat.le_refl _)]
  simp [fill, alone, giveOut, live, Budget.claim, room]

theorem next_read (scanned : Scanned) (room : budget.claimed < budget.maxFiles)
    (readable : scan file = some scanned) :
    (alone (.ok file :: rest)).next scan budget =
      (some (.ok scanned), alone rest, { budget with claimed := budget.claimed + 1 }) := by
  rw [next_eq, if_neg (by simp [live]), fill_one budget file rest live room]
  simp only [readable]
  rfl

theorem next_skip (room : budget.claimed < budget.maxFiles) (unreadable : scan file = none) :
    (alone (.ok file :: rest)).next scan budget =
      (alone rest).next scan { budget with claimed := budget.claimed + 1 } := by
  rw [next_eq, if_neg (by simp [live]), fill_one budget file rest live room]
  simp only [unreadable]
  rfl

end Alone

-- How one worker between two results stands to the files it is still to read.
inductive Waiting : FileStream → Stream → Prop where
  | more (discovery : Stream) : Waiting (alone discovery) discovery
  | done (discovery : Stream) : Waiting (ended discovery) []

-- One worker gives what the plain stream gives, and stands to its rest as before.
theorem next_waiting (stream : FileStream) (discovery : Stream) (waiting : Waiting stream discovery) :
    ∃ after, stream.next scan budget =
        ((Stream.next scan budget discovery).1, after, (Stream.next scan budget discovery).2.2) ∧
      Waiting after (Stream.next scan budget discovery).2.1 := by
  cases waiting with
  | done discovery => exact ⟨_, next_ended scan budget discovery, .done discovery⟩
  | more =>
      induction discovery generalizing budget with
      | nil =>
          cases live : budget.cancelled with
          | true => exact ⟨_, next_stopped scan budget [] live, .more []⟩
          | false => exact ⟨_, next_nil scan budget live, .done []⟩
      | cons item rest ih =>
          cases live : budget.cancelled with
          | true =>
              rw [Stream.next_stopped scan budget _ live]
              exact ⟨_, next_stopped scan budget _ live, .more _⟩
          | false =>
              cases item with
              | error fault =>
                  rw [Stream.next_fault scan budget rest live]
                  exact ⟨_, next_fault scan budget rest live fault, .more rest⟩
              | ok file =>
                  by_cases room : budget.claimed < budget.maxFiles
                  · cases readable : scan file with
                    | none =>
                        rw [Stream.next_skip scan budget file rest live room readable,
                          next_skip scan budget file rest live room readable]
                        exact ih { budget with claimed := budget.claimed + 1 }
                    | some scanned =>
                        rw [Stream.next_read scan budget file rest live scanned room readable]
                        exact ⟨_, next_read scan budget file rest live scanned room readable, .more rest⟩
                  · rw [Stream.next_spent scan budget file rest live room]
                    exact ⟨_, next_spent scan budget file rest live room, .done rest⟩

end FileStream

end BlockSearch
