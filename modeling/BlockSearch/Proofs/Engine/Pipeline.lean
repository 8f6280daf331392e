import BlockSearch.Proofs.Discovery.Numbering
import BlockSearch.Proofs.Engine.History
import BlockSearch.Proofs.Scan.Gathering
import BlockSearch.Proofs.Scan.OneWorker

set_option autoImplicit false

namespace BlockSearch

namespace Collection

variable (scan : FileEntry → Option Scanned)

theorem drain_eq (collection : Collection) (budget : Budget) (stream : FileStream) :
    collection.drain scan budget stream =
      match stream.next scan budget with
      | (none, _, after) => (.ok collection, after)
      | (some (.error fault), rest, after) =>
          if collection.findings.isEmpty then (.error fault, after) else collection.drain scan after rest
      | (some (.ok scanned), rest, after) =>
          match collection.add after scanned with
          | (true, more, last) => (.ok more, last)
          | (false, more, last) => more.drain scan last rest := by
  rw [drain]
  split
  · rename_i given
    simp only [given]
  · rename_i given
    simp only [given]
  · rename_i scanned rest after given
    cases added : collection.add after scanned with
    | mk spent more =>
        cases spent <;> simp only [given, added]

theorem add_claimed (collection : Collection) (budget : Budget) (files : Nat) (scanned : Scanned) :
    collection.add { budget with claimed := files } scanned =
      ((collection.add budget scanned).1, (collection.add budget scanned).2.1,
        { (collection.add budget scanned).2.2 with claimed := files }) := by
  by_cases none : scanned.findings = []
  · simp only [add_nothing _ _ _ none]
  · simp only [add_some _ _ _ none]
    rfl

theorem gather_claimed (collection : Collection) (budget : Budget) (files : Nat)
    (items : List (Except WalkFault Scanned)) :
    (gather collection { budget with claimed := files } items).1 = (gather collection budget items).1 := by
  induction items generalizing collection budget with
  | nil => rfl
  | cons item rest ih =>
      cases item with
      | error fault =>
          simp only [gather]
          split
          · rfl
          · exact ih collection budget
      | ok scanned =>
          simp only [gather, add_claimed]
          obtain ⟨spent, more, after⟩ := collection.add budget scanned
          cases spent with
          | true => rfl
          | false => exact ih more after

theorem add_open (collection : Collection) (budget : Budget) (scanned : Scanned) :
    (collection.add budget scanned).2.2.maxFiles = budget.maxFiles ∧
      ((collection.add budget scanned).1 = false →
        (collection.add budget scanned).2.2.cancelled = budget.cancelled) := by
  by_cases none : scanned.findings = []
  · rw [add_nothing _ _ _ none]
    exact ⟨rfl, fun _ => rfl⟩
  · rw [add_some _ _ _ none]
    refine ⟨rfl, fun goesOn => ?_⟩
    simp only [Budget.record] at goesOn ⊢
    rw [goesOn, Bool.or_false]

-- Reading the files as they are asked for gathers what the readable ones among those that may be read give.
theorem drain_files (collection : Collection) (budget : Budget) (files : List FileEntry)
    (live : budget.cancelled = false) :
    (collection.drain scan budget (FileStream.alone (files.map .ok))).1 =
      (gather collection budget
        (((files.take (budget.maxFiles - budget.claimed)).filterMap scan).map .ok)).1 := by
  induction files generalizing collection budget with
  | nil =>
      rw [drain_eq, List.map_nil, FileStream.next_nil scan budget live]
      simp [gather]
  | cons file rest ih =>
      rw [List.map_cons]
      by_cases room : budget.claimed < budget.maxFiles
      · have left : budget.maxFiles - budget.claimed = budget.maxFiles - (budget.claimed + 1) + 1 := by omega
        rw [left, List.take_succ_cons]
        cases readable : scan file with
        | none =>
            rw [drain_eq, FileStream.next_skip scan budget file _ live room readable, ← drain_eq,
              ih collection { budget with claimed := budget.claimed + 1 } live, List.filterMap_cons_none readable,
              gather_claimed]
        | some scanned =>
            rw [drain_eq, FileStream.next_read scan budget file _ live scanned room readable,
              List.filterMap_cons_some readable, List.map_cons]
            simp only [gather, add_claimed]
            have kept := add_open collection budget scanned
            generalize collection.add budget scanned = added at kept
            obtain ⟨spent, more, after⟩ := added
            obtain ⟨files, open'⟩ := kept
            simp only at files open'
            cases spent with
            | true => rfl
            | false =>
                have later := ih more { after with claimed := budget.claimed + 1 } ((open' rfl).trans live)
                rw [gather_claimed] at later
                simpa only [files] using later
      · have none : budget.maxFiles - budget.claimed = 0 := by omega
        rw [drain_eq, FileStream.next_spent scan budget file _ live room, none]
        simp [gather]

end Collection

def readable (tree : FileTree) (files : List FileEntry) : List (FileEntry × Text) :=
  files.filterMap fun file => (tree.text? file.location).map fun content => (file, content)

def Matcher.scanned (matcher : Matcher) (file : FileEntry × Text) : Scanned :=
  ⟨file.1, matcher.findings file.1 file.2⟩

theorem scan_readable (matcher : Matcher) (tree : FileTree) (files : List FileEntry) :
    files.filterMap (matcher.scan tree) = (readable tree files).map matcher.scanned := by
  rw [readable, List.map_filterMap]
  congr 1
  funext file
  rw [Matcher.scan, Option.map_map]
  rfl

theorem readable_numbered (tree : FileTree) (files : List FileEntry)
    (numbered : files.Pairwise fun a b => a.order < b.order) :
    (readable tree files).Pairwise fun a b => a.1.order < b.1.order := by
  apply List.pairwise_filterMap.mpr
  apply numbered.imp
  intro a b less x fromA y fromB
  obtain ⟨_, -, rfl⟩ := Option.map_eq_some_iff.mp fromA
  obtain ⟨_, -, rfl⟩ := Option.map_eq_some_iff.mp fromB
  exact less

-- Files are numbered in the order of their discovery and blocks come in the order of the text, so no two findings of
-- readable files rank alike.
theorem readable_apart (matcher : Matcher) (tree : FileTree) (files : List FileEntry)
    (numbered : files.Pairwise fun a b => a.order < b.order) :
    ((readable tree files).flatMap fun file => matcher.findings file.1 file.2).Pairwise Finding.Apart := by
  have orders := (readable_numbered tree files numbered).imp fun less => Nat.ne_of_lt less
  have scans := findings_apart ((readable tree files).map matcher.scanned)
    (by
      intro scanned member
      obtain ⟨file, -, rfl⟩ := List.mem_map.mp member
      exact matcher.findings_coherent file.1 file.2)
    (List.pairwise_map.mpr orders)
  rwa [List.flatMap_map] at scans

theorem Settings.max_findings_bounds (settings : Settings) (symbolCount : Nat) :
    0 < settings.maxFindings symbolCount ∧ settings.maxFindings symbolCount < Budget.countSpan := by
  have limit : Decimal.wordLimit = Budget.countSpan := rfl
  have wide : 1 < Budget.countSpan := by decide
  simp only [Settings.maxFindings, Decimal.saturate, limit]
  omega

namespace Engine

theorem collect_pipeline (tree : FileTree) (settings : Settings) (pattern : Symbol.Pattern) (symbolCount : Nat)
    (plan : Plan) (discovered : List FileEntry) (single : settings.workers = 1)
    (enumerated : plan.discover tree (walkLimits settings) = discovered.map .ok) :
    collect tree settings false pattern symbolCount plan =
      .ok ⟨((readable tree (discovered.take settings.maxFiles)).flatMap fun file =>
          Matcher.findings ⟨pattern, settings.limits⟩ file.1 file.2).take (settings.maxFindings symbolCount),
        Collection.filesUntil (settings.maxFindings symbolCount)
          ((readable tree (discovered.take settings.maxFiles)).map fun file =>
            (Matcher.findings ⟨pattern, settings.limits⟩ file.1 file.2).length)⟩ := by
  obtain ⟨positive, small⟩ := settings.max_findings_bounds symbolCount
  have started : FileStream.start 1 (discovered.map .ok) = FileStream.alone (discovered.map .ok) := rfl
  simp only [collect, enumerated, single, started]
  rw [Collection.drain_files _ _ _ _ rfl, scan_readable]
  rw [Collection.gather_until _ _ _ small (by simpa [Budget.remaining, Budget.start] using positive)]
  simp [Collection.empty, Budget.remaining, Budget.start, List.flatMap_map, Matcher.scanned, Function.comp_def]

theorem search_collected (engine : Engine) (tree : FileTree) (request : Request) (symbols : List Text) (plan : Plan)
    (collection : Collection) (faithful : engine.cache.Faithful) (valid : request.symbolSet = .ok symbols)
    (accepted : engine.refuses symbols = none)
    (planned : Engine.plan tree engine.settings request.searchPaths = .ok plan)
    (collected : collect tree engine.settings false (Symbol.Pattern.ofSymbols symbols) symbols.length plan =
      .ok collection) :
    (engine.search tree false request).1 =
      if collection.findings = [] then .error (.notFound symbols request.searchPaths)
      else .ok ⟨symbols, (Finding.ranked collection.findings).take (request.shownLimit engine.settings.defaultLimit),
        collection.findings.length, collection.filesScanned⟩ := by
  simp only [search, valid, planned, Symbol.Cache.prepare_accepted _ _ _ accepted,
    Symbol.Cache.lookup_pattern engine.cache symbols faithful, collected, List.isEmpty_iff]
  split <;> rfl

theorem search_is_pipeline (settings : Settings) (refuses : Symbol.Refusal) (engine : Engine) (tree : FileTree)
    (request : Request) (symbols : List Text) (plan : Plan) (discovered : List FileEntry)
    (reachable : Reachable settings refuses engine) (single : settings.workers = 1)
    (valid : request.symbolSet = .ok symbols) (accepted : refuses symbols = none)
    (planned : Engine.plan tree settings request.searchPaths = .ok plan)
    (enumerated : plan.discover tree (walkLimits settings) = discovered.map .ok) :
    let matcher : Matcher := ⟨Symbol.Pattern.ofSymbols symbols, settings.limits⟩
    let files := readable tree (discovered.take settings.maxFiles)
    let found := files.flatMap fun file => matcher.findings file.1 file.2
    let bound := settings.maxFindings symbols.length
    ((engine.search tree false request).1 = .error (.notFound symbols request.searchPaths) ↔ found = []) ∧
      (found ≠ [] → ∃ ranking : List Finding,
        ranking.Perm (found.take bound) ∧ ranking.Pairwise Finding.Precedes ∧
          (engine.search tree false request).1 =
            .ok ⟨symbols, ranking.take (request.shownLimit settings.defaultLimit), min found.length bound,
              Collection.filesUntil bound (files.map fun file => (matcher.findings file.1 file.2).length)⟩) := by
  intro matcher files found bound
  obtain ⟨rfl, rfl, patterns⟩ := reachable.keeps
  have collected := collect_pipeline tree engine.settings (Symbol.Pattern.ofSymbols symbols) symbols.length plan
    discovered single enumerated
  have answer := search_collected engine tree request symbols plan _ patterns.faithful valid accepted planned
    collected
  have positive : 0 < bound := (engine.settings.max_findings_bounds symbols.length).1
  have emptyIff : found.take bound = [] ↔ found = [] := by
    rw [List.take_eq_nil_iff]
    exact ⟨fun either => either.resolve_left (Nat.ne_of_gt positive), .inr⟩
  change (engine.search tree false request).1 = if found.take bound = [] then _ else _ at answer
  by_cases none : found = []
  · rw [if_pos (emptyIff.mpr none)] at answer
    exact ⟨⟨fun _ => none, fun _ => answer⟩, fun some => absurd none some⟩
  · rw [if_neg (fun empty => none (emptyIff.mp empty))] at answer
    refine ⟨⟨fun refused => ?_, fun empty => absurd empty none⟩, fun _ => ?_⟩
    · rw [answer] at refused
      simp at refused
    · have numbered := Admission.discover_numbered tree (walkLimits engine.settings) plan discovered enumerated
      have apart : found.Pairwise Finding.Apart :=
        readable_apart matcher tree _ (numbered.sublist (List.take_sublist engine.settings.maxFiles discovered))
      have strict := Finding.ranked_strict _ (apart.sublist (List.take_sublist bound found))
      refine ⟨Finding.ranked (found.take bound), Finding.ranked_perm _, strict, ?_⟩
      rw [answer, Nat.min_comm, ← List.length_take]

-- The second file is read as no text: it takes a place among the files that may be read, but is not counted as scanned.
theorem search_of_two_files :
    let tree : FileTree := ⟨.entry ['w'] (.directory
      (.entry "a.ts".toList (.file (Text.utf8 "\nf \x7b\n\x7d\n".toList))
        (.entry "b.ts".toList (.file [0xff, 10])
          (.entry "c.ts".toList (.file (Text.utf8 "\nfunction f \x7b\n\x7d\n".toList)) .empty)))) .empty, "/w".toList⟩
    let settings : Settings := { Settings.initial "/w".toList with workers := 1 }
    let request : Request := ⟨[['f']], [], none, false⟩
    ∃ ranking : List Finding, ranking.Pairwise Finding.Precedes ∧
      ((Engine.ofSettings settings).search tree false request).1 = .ok ⟨[['f']], ranking.take 5, 2, 2⟩ := by
  intro tree settings request
  have valid : request.symbolSet = .ok [['f']] := rfl
  have walked : (Engine.plan tree settings request.searchPaths).toOption.map
      (fun plan => plan.discover tree (walkLimits settings)) =
        some ([⟨"a.ts".toList, "/w/a.ts".toList, 7, 0⟩, ⟨"b.ts".toList, "/w/b.ts".toList, 2, 1⟩,
          ⟨"c.ts".toList, "/w/c.ts".toList, 16, 2⟩].map .ok) := by
    decide +kernel
  cases planned : Engine.plan tree settings request.searchPaths with
  | error fault => simp [planned, Except.toOption] at walked
  | ok plan =>
      simp only [planned, Except.toOption, Option.map_some, Option.some.injEq] at walked
      have pipeline := search_is_pipeline settings .never (Engine.ofSettings settings) tree request [['f']]
        plan _ .fresh rfl valid rfl planned walked
      obtain ⟨ranking, -, ordered, answer⟩ := pipeline.2 (by decide +kernel)
      refine ⟨ranking, ordered, answer.trans ?_⟩
      congr 2

end Engine

end BlockSearch
