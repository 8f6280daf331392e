import BlockSearch.Proofs.Engine.Pipeline

set_option autoImplicit false

namespace BlockSearch

inductive Notice where
  | found (count : Nat)
  | cancel
deriving DecidableEq, Repr

namespace Budget

def notice (budget : Budget) : Notice → Budget
  | .found count => (budget.record count).2
  | .cancel => budget.cancel

def told (budget : Budget) (notices : List Notice) : Budget := notices.foldl notice budget

-- The budget after what the consumer tells it before a call and before those ahead of it, the claims of the scan aside.
def heard : Budget → (Nat → List Notice) → Nat → Budget
  | budget, consumer, 0 => budget.told (consumer 0)
  | budget, consumer, call + 1 => heard (budget.told (consumer 0)) (fun later => consumer (later + 1)) call

theorem notice_claimed (budget : Budget) (given : Notice) (files : Nat) :
    notice { budget with claimed := files } given = { budget.notice given with claimed := files } := by
  cases given <;> rfl

theorem told_claimed (budget : Budget) (notices : List Notice) (files : Nat) :
    told { budget with claimed := files } notices = { budget.told notices with claimed := files } := by
  induction notices generalizing budget with
  | nil => rfl
  | cons first rest ih =>
      rw [told, List.foldl_cons, notice_claimed]
      exact ih (budget.notice first)

theorem heard_claimed (budget : Budget) (consumer : Nat → List Notice) (call files : Nat) :
    heard { budget with claimed := files } consumer call = { budget.heard consumer call with claimed := files } := by
  induction call generalizing budget consumer with
  | zero => exact told_claimed budget (consumer 0) files
  | succ call ih => rw [heard, told_claimed, ih, heard]

theorem told_account (budget : Budget) (notices : List Notice) :
    (budget.told notices).claimed = budget.claimed ∧ (budget.told notices).maxFiles = budget.maxFiles := by
  induction notices generalizing budget with
  | nil => exact ⟨rfl, rfl⟩
  | cons first rest ih =>
      obtain ⟨claimed, files⟩ := ih (budget.notice first)
      cases first <;> exact ⟨claimed, files⟩

theorem told_stopped (budget : Budget) (notices : List Notice) (stopped : budget.cancelled = true) :
    (budget.told notices).cancelled = true := by
  induction notices generalizing budget with
  | nil => exact stopped
  | cons first rest ih =>
      refine ih _ ?_
      cases first with
      | found count => simp [notice, record, stopped]
      | cancel => rfl

end Budget

variable (scan : FileEntry → Option Scanned)

theorem Stream.next_files (budget : Budget) (files : List FileEntry) (live : budget.cancelled = false) :
    (∃ skipped file rest scanned, files = skipped ++ file :: rest ∧
        budget.claimed + skipped.length < budget.maxFiles ∧ skipped.filterMap scan = [] ∧
        scan file = some scanned ∧ Stream.next scan budget (files.map .ok) =
          (some (.ok scanned), rest.map .ok, { budget with claimed := budget.claimed + skipped.length + 1 })) ∨
      (files.take (budget.maxFiles - budget.claimed)).filterMap scan = [] ∧
        Stream.next scan budget (files.map .ok) =
          (none, [], { budget with
            claimed := budget.claimed + min (budget.maxFiles - budget.claimed) files.length }) := by
  induction files generalizing budget with
  | nil => exact .inr ⟨by simp, by simp [next]⟩
  | cons file rest ih =>
      rw [List.map_cons]
      by_cases room : budget.claimed < budget.maxFiles
      · have left : budget.maxFiles - budget.claimed = budget.maxFiles - (budget.claimed + 1) + 1 := by omega
        cases readable : scan file with
        | some scanned =>
            left
            refine ⟨[], file, rest, scanned, rfl, room, rfl, readable, ?_⟩
            exact next_read scan budget file _ live scanned room readable
        | none =>
            rw [next_skip scan budget file _ live room readable, left, List.take_succ_cons,
              List.filterMap_cons_none readable]
            rcases ih { budget with claimed := budget.claimed + 1 } live with
              ⟨skipped, other, others, scanned, rfl, within, unreadable, given, next⟩ | ⟨unreadable, next⟩
            · left
              refine ⟨file :: skipped, other, others, scanned, rfl, ?_, ?_, given, ?_⟩
              · simp only [List.length_cons] at within ⊢
                omega
              · rw [List.filterMap_cons_none readable, unreadable]
              · rw [next, List.length_cons, Nat.add_assoc budget.claimed 1, Nat.add_comm 1]
            · right
              refine ⟨unreadable, ?_⟩
              rw [next, List.length_cons, Nat.add_min_add_right, Nat.add_assoc, Nat.add_comm 1]
      · have none : budget.maxFiles - budget.claimed = 0 := by omega
        rw [next_spent scan budget file _ live room, none]
        exact .inr ⟨by simp, by simp⟩

-- What a call has to give and how many files are claimed then: the file before which as many were given as there were
-- calls; or nothing, when all files that may be read are gone through.
inductive Accounts (maxFiles claimed : Nat) :
    List FileEntry → Nat → Option (Except WalkFault Scanned) → Nat → Prop where
  | file (front : List FileEntry) (file : FileEntry) (rest : List FileEntry) (scanned : Scanned) (call : Nat)
      (room : claimed + front.length < maxFiles) (count : (front.filterMap scan).length = call)
      (readable : scan file = some scanned) :
      Accounts maxFiles claimed (front ++ file :: rest) call (some (.ok scanned)) (claimed + front.length + 1)
  | spent (files : List FileEntry) (call : Nat)
      (count : ((files.take (maxFiles - claimed)).filterMap scan).length ≤ call) :
      Accounts maxFiles claimed files call none (claimed + min (maxFiles - claimed) files.length)

namespace Accounts

variable {scan} {maxFiles claimed call after : Nat} {files : List FileEntry} {given : Option (Except WalkFault Scanned)}

theorem behind_file {rest : List FileEntry} (skipped : List FileEntry) (file : FileEntry) (scanned : Scanned)
    (within : claimed + skipped.length < maxFiles) (unreadable : skipped.filterMap scan = []) (readable : scan file = some scanned)
    (accounts : Accounts scan maxFiles (claimed + skipped.length + 1) rest call given after) :
    Accounts scan maxFiles claimed (skipped ++ file :: rest) (call + 1) given after := by
  cases accounts with
  | file front other rest result call room count readableOther =>
      have account : claimed + skipped.length + 1 + front.length + 1 =
          claimed + (skipped ++ file :: front).length + 1 := by
        rw [List.length_append, List.length_cons]
        omega
      have split : skipped ++ file :: (front ++ other :: rest) = (skipped ++ file :: front) ++ other :: rest := by simp
      rw [account, split]
      refine .file _ other rest result _ (by rw [List.length_append, List.length_cons]; omega) ?_ readableOther
      rw [List.filterMap_append, unreadable, List.nil_append, List.filterMap_cons_some readable, List.length_cons, count]
  | spent rest call count =>
      have left : maxFiles - claimed = (skipped ++ [file]).length + (maxFiles - (claimed + skipped.length + 1)) := by
        rw [List.length_append, List.length_singleton]
        omega
      have account : claimed + skipped.length + 1 + min (maxFiles - (claimed + skipped.length + 1)) rest.length =
          claimed + min (maxFiles - claimed) (skipped ++ file :: rest).length := by
        rw [List.length_append, List.length_cons]
        omega
      rw [account]
      refine .spent _ _ ?_
      rw [left, List.append_cons skipped file rest, List.take_length_add_append, List.filterMap_append,
        List.filterMap_append, unreadable, List.nil_append, List.length_append, List.filterMap_cons_some readable,
        List.filterMap_nil, List.length_singleton, Nat.add_comm 1]
      exact Nat.succ_le_succ count

theorem behind_end (files : List FileEntry) (unreadable : (files.take (maxFiles - claimed)).filterMap scan = [])
    (accounts : Accounts scan maxFiles (claimed + min (maxFiles - claimed) files.length) [] call given after) :
    Accounts scan maxFiles claimed files (call + 1) given after := by
  generalize none : ([] : List FileEntry) = rest at accounts
  cases accounts with
  | file front other rest result call room count readableOther => simp at none
  | spent rest call count =>
      subst none
      simpa using Accounts.spent files (call + 1) (by rw [unreadable]; exact Nat.zero_le _)

theorem of_end (accounts : Accounts scan maxFiles claimed files call none after) :
    after = claimed + min (maxFiles - claimed) files.length := by
  cases accounts with
  | spent _ _ _ => rfl

theorem of_scanned {matcher : Matcher} {tree : FileTree} {scanned : Scanned}
    (accounts : Accounts (matcher.scan tree) maxFiles claimed files call (some (.ok scanned)) after) :
    ∃ front file rest content, files = front ++ file :: rest ∧ tree.text? file.location = some content ∧
      scanned = matcher.scanned (file, content) ∧ (readable tree front).length = call ∧
      after = claimed + (front.length + 1) := by
  cases accounts with
  | file front file rest _ _ room count found =>
      obtain ⟨content, text, result⟩ := Option.map_eq_some_iff.mp found
      rw [scan_readable, List.length_map] at count
      exact ⟨front, file, rest, content, rfl, text, result.symm, count, rfl⟩

theorem result (accounts : Accounts scan maxFiles claimed files call given after) :
    given = ((files.take (maxFiles - claimed)).filterMap scan)[call]?.map .ok := by
  cases accounts with
  | file front file rest scanned call room count readable =>
      have left : maxFiles - claimed = front.length + (maxFiles - claimed - front.length - 1 + 1) := by omega
      rw [left, List.take_length_add_append, List.take_succ_cons, List.filterMap_append,
        List.filterMap_cons_some readable, ← count, List.getElem?_append_right (Nat.le_refl _), Nat.sub_self]
      rfl
  | spent files call count => rw [List.getElem?_eq_none count, Option.map_none]

end Accounts

theorem Stream.next_account (budget : Budget) (discovery : Stream) :
    ∃ files, (Stream.next scan budget discovery).2.2 = { budget with claimed := files } := by
  induction discovery generalizing budget with
  | nil => exact ⟨budget.claimed, rfl⟩
  | cons item rest ih =>
      rcases Bool.eq_false_or_eq_true budget.cancelled with stopped | live
      · rw [next_stopped scan budget _ stopped]
        exact ⟨budget.claimed, rfl⟩
      · cases item with
        | error fault =>
            rw [next_fault scan budget rest live]
            exact ⟨budget.claimed, rfl⟩
        | ok file =>
            by_cases room : budget.claimed < budget.maxFiles
            · cases readable : scan file with
              | none =>
                  rw [next_skip scan budget file rest live room readable]
                  exact ih { budget with claimed := budget.claimed + 1 }
              | some scanned =>
                  rw [next_read scan budget file rest live scanned room readable]
                  exact ⟨budget.claimed + 1, rfl⟩
            · rw [next_spent scan budget file rest live room]
              exact ⟨budget.claimed, rfl⟩

namespace FileStream

def reply : (Nat → List Notice) → Budget → FileStream → Nat → Option (Except WalkFault Scanned) × FileStream × Budget
  | consumer, budget, stream, 0 => stream.next scan (budget.told (consumer 0))
  | consumer, budget, stream, call + 1 =>
      let first := stream.next scan (budget.told (consumer 0))
      reply (fun later => consumer (later + 1)) first.2.2 first.2.1 call

theorem Waiting.idle {stream : FileStream} {discovery : Stream} (waiting : Waiting stream discovery) :
    stream.inFlight = [] := by
  cases waiting <;> rfl

theorem reply_idle (consumer : Nat → List Notice) (budget : Budget) (stream : FileStream) (discovery : Stream)
    (waiting : Waiting stream discovery) (call : Nat) : (reply scan consumer budget stream call).2.1.inFlight = [] := by
  induction call generalizing consumer budget stream discovery with
  | zero =>
      obtain ⟨after, next, still⟩ := next_waiting scan (budget.told (consumer 0)) stream discovery waiting
      rw [reply, next]
      exact still.idle
  | succ call ih =>
      obtain ⟨after, next, still⟩ := next_waiting scan (budget.told (consumer 0)) stream discovery waiting
      rw [reply]
      refine ih _ _ _ (Stream.next scan (budget.told (consumer 0)) discovery).2.1 ?_
      rw [next]
      exact still

theorem reply_stopped (consumer : Nat → List Notice) (budget : Budget) (stream : FileStream) (discovery : Stream)
    (waiting : Waiting stream discovery) (call : Nat)
    (stopped : ∃ earlier ≤ call, (budget.heard consumer earlier).cancelled = true) :
    (reply scan consumer budget stream call).1 = none := by
  induction call generalizing consumer budget stream discovery with
  | zero =>
      obtain ⟨earlier, first, off⟩ := stopped
      rw [Nat.le_zero.mp first, Budget.heard] at off
      rw [reply, next_eq, if_pos off]
  | succ call ih =>
      obtain ⟨after, next, still⟩ := next_waiting scan (budget.told (consumer 0)) stream discovery waiting
      obtain ⟨files, account⟩ := Stream.next_account scan (budget.told (consumer 0)) discovery
      rw [reply, next, account]
      refine ih _ _ _ _ still ?_
      obtain ⟨earlier, within, off⟩ := stopped
      cases earlier with
      | zero =>
          refine ⟨0, Nat.zero_le call, ?_⟩
          rw [Budget.heard_claimed]
          exact Budget.told_stopped _ _ off
      | succ earlier =>
          refine ⟨earlier, Nat.le_of_succ_le_succ within, ?_⟩
          rw [Budget.heard_claimed]
          exact off

-- Until the scan is called off the calls give one readable file after the other, as far as the budget goes.
theorem reply_live (consumer : Nat → List Notice) (budget : Budget) (stream : FileStream) (files : List FileEntry)
    (waiting : Waiting stream (files.map .ok)) (call : Nat)
    (live : ∀ earlier ≤ call, (budget.heard consumer earlier).cancelled = false) :
    Accounts scan budget.maxFiles budget.claimed files call (reply scan consumer budget stream call).1
      (reply scan consumer budget stream call).2.2.claimed := by
  induction call generalizing consumer budget stream files with
  | zero =>
      obtain ⟨after, next, -⟩ := next_waiting scan (budget.told (consumer 0)) stream _ waiting
      obtain ⟨claimed, maxFiles⟩ := budget.told_account (consumer 0)
      rw [reply, next, ← claimed, ← maxFiles]
      rcases Stream.next_files scan (budget.told (consumer 0)) files (live 0 (Nat.le_refl _)) with
        ⟨skipped, file, rest, scanned, rfl, room, unreadable, readable, given⟩ | ⟨unreadable, given⟩
      · rw [given]
        exact .file skipped file rest scanned 0 room (by rw [unreadable]; rfl) readable
      · rw [given]
        exact .spent files 0 (by rw [unreadable]; exact Nat.le_refl _)
  | succ call ih =>
      obtain ⟨after, next, still⟩ := next_waiting scan (budget.told (consumer 0)) stream _ waiting
      obtain ⟨claimed, maxFiles⟩ := budget.told_account (consumer 0)
      have onward (after : FileStream) (rest : List FileEntry) (still : Waiting after (rest.map .ok)) (count : Nat) :=
        ih (fun later => consumer (later + 1)) { budget.told (consumer 0) with claimed := count } after rest still
          fun earlier within => by
            rw [Budget.heard_claimed]
            exact live (earlier + 1) (Nat.succ_le_succ within)
      rw [reply, next, ← claimed, ← maxFiles]
      rcases Stream.next_files scan (budget.told (consumer 0)) files (live 0 (Nat.zero_le _)) with
        ⟨skipped, file, rest, scanned, rfl, room, unreadable, readable, given⟩ | ⟨unreadable, given⟩
      · rw [given] at still ⊢
        have further := onward after rest still ((budget.told (consumer 0)).claimed + skipped.length + 1)
        exact further.behind_file skipped file scanned room unreadable readable
      · rw [given] at still ⊢
        have further := onward after [] still ((budget.told (consumer 0)).claimed +
          min ((budget.told (consumer 0)).maxFiles - (budget.told (consumer 0)).claimed) files.length)
        exact further.behind_end files unreadable

end FileStream

theorem one_worker_replies (matcher : Matcher) (tree : FileTree) (files : List FileEntry) (budget : Budget)
    (consumer : Nat → List Notice) (call : Nat) :
    let allowed := budget.maxFiles - budget.claimed
    let scans := (readable tree (files.take allowed)).map matcher.scanned
    let reply := FileStream.reply (matcher.scan tree) consumer budget (FileStream.start 1 (files.map .ok)) call
    reply.2.1.inFlight = [] ∧
      ((∃ earlier ≤ call, (budget.heard consumer earlier).cancelled = true) → reply.1 = none) ∧
      ((∀ earlier ≤ call, (budget.heard consumer earlier).cancelled = false) →
        reply.1 = scans[call]?.map .ok ∧
        (∀ scanned, reply.1 = some (.ok scanned) → ∃ front file rest content, files = front ++ file :: rest ∧
          tree.text? file.location = some content ∧ scanned = matcher.scanned (file, content) ∧
          (readable tree front).length = call ∧ reply.2.2.claimed = budget.claimed + (front.length + 1)) ∧
        (reply.1 = none → reply.2.2.claimed = budget.claimed + min allowed files.length)) := by
  intro allowed scans reply
  have waiting : FileStream.Waiting (FileStream.start 1 (files.map .ok)) (files.map .ok) := .more _
  refine ⟨FileStream.reply_idle _ consumer budget _ _ waiting call,
    FileStream.reply_stopped _ consumer budget _ _ waiting call, fun live => ?_⟩
  have accounts := FileStream.reply_live (matcher.scan tree) consumer budget _ files waiting call live
  refine ⟨by rw [accounts.result, scan_readable], ?_, ?_⟩
  · intro scanned given
    exact (given ▸ accounts).of_scanned
  · intro given
    exact (given ▸ accounts).of_end

-- The second call passes over the file that holds no text, which takes its place in the account; the third comes too late.
theorem one_worker_replies_until_cancelled :
    let text := "f \x7b\n\x7d\n".toList
    let tree : FileTree := ⟨.entry ['w'] (.directory
      (.entry ['a'] (.file (Text.utf8 text)) (.entry ['b'] (.file [0xff])
        (.entry ['c'] (.file (Text.utf8 text)) (.entry ['d'] (.file []) .empty))))) .empty, "/w".toList⟩
    let matcher : Matcher := ⟨Symbol.Pattern.ofSymbols [['f']], ⟨100, 50⟩⟩
    let third : FileEntry := ⟨['c'], "/w/c".toList, 6, 2⟩
    let files : List FileEntry :=
      [⟨['a'], "/w/a".toList, 6, 0⟩, ⟨['b'], "/w/b".toList, 1, 1⟩, third, ⟨['d'], "/w/d".toList, 0, 3⟩]
    let consumer : Nat → List Notice := fun call => if call = 2 then [.found 1, .cancel] else [.found 1]
    let reply := FileStream.reply (matcher.scan tree) consumer (Budget.start 4 9 false) (FileStream.start 1 (files.map .ok))
    (reply 1).1 = some (.ok (matcher.scanned (third, text))) ∧ (reply 1).2.2.claimed = 3 ∧ (reply 2).1 = none := by
  intro text tree matcher third files consumer reply
  have live : ∀ earlier ≤ 1, ((Budget.start 4 9 false).heard consumer earlier).cancelled = false := by decide
  have stopped : ((Budget.start 4 9 false).heard consumer 2).cancelled = true := by decide
  obtain ⟨given, account, -⟩ := (one_worker_replies matcher tree files (Budget.start 4 9 false) consumer 1).2.2 live
  have second : (readable tree files)[1]? = some (third, text) := by decide +kernel
  have place : ∀ before ≤ 3, (readable tree (files.take before)).length = 1 →
      (files[before]?.bind fun file => tree.text? file.location) ≠ none → before = 2 := by
    decide +kernel
  have scanned : (reply 1).1 = some (.ok (matcher.scanned (third, text))) := by
    refine given.trans ?_
    change Option.map Except.ok ((readable tree files).map matcher.scanned)[1]? = _
    rw [List.getElem?_map, second]
    rfl
  obtain ⟨front, file, rest, content, split, found, -, count, claimed⟩ := account _ scanned
  have two : front.length = 2 := by
    have four : files.length = 4 := rfl
    rw [split, List.length_append, List.length_cons] at four
    refine place front.length (by omega) ?_ ?_
    · rw [split, List.take_left, count]
    · rw [split, List.getElem?_append_right (Nat.le_refl _), Nat.sub_self, List.getElem?_cons_zero, Option.bind_some, found]
      exact Option.some_ne_none content
  refine ⟨scanned, claimed.trans (by rw [two]; rfl), ?_⟩
  exact (one_worker_replies matcher tree files (Budget.start 4 9 false) consumer 2).2.1 ⟨2, Nat.le_refl 2, stopped⟩

end BlockSearch
