import BlockSearch.Proofs.Symbol.Cache
import Mathlib.Data.List.Dedup

set_option autoImplicit false

namespace BlockSearch.Symbol.Cache

theorem mem_take_behind {α : Type} (x : α) (front back : List α) (absent : x ∉ front) (room : Nat) :
    x ∈ (front ++ x :: back).take room ↔ front.length < room := by
  rw [List.take_append, List.mem_append]
  constructor
  · rintro (early | late)
    · exact absurd (List.mem_of_mem_take early) absent
    · by_contra full
      rw [Nat.sub_eq_zero_of_le (Nat.le_of_not_lt full), List.take_zero] at late
      exact absurd late List.not_mem_nil
  · intro room
    obtain ⟨more, left⟩ := Nat.exists_eq_add_of_lt room
    right
    rw [left, Nat.add_assoc, Nat.add_sub_cancel_left, List.take_succ_cons]
    exact List.mem_cons_self

section Lists

variable {α : Type} [DecidableEq α]

theorem dedup_behind (front back : List α) :
    (front ++ back).dedup = (front.dedup.filter fun x => decide (x ∉ back)) ++ back.dedup := by
  induction front with
  | nil => rfl
  | cons x rest ih =>
      by_cases again : x ∈ rest
      · rw [List.cons_append, List.dedup_cons_of_mem (List.mem_append_left back again), ih,
          List.dedup_cons_of_mem again]
      · rw [List.dedup_cons_of_notMem again, List.cons_append]
        by_cases behind : x ∈ back
        · rw [List.dedup_cons_of_mem (List.mem_append_right rest behind), ih,
            List.filter_cons_of_neg (by simpa using behind)]
        · rw [List.dedup_cons_of_notMem (by simp [again, behind]), ih, List.filter_cons_of_pos (by simpa using behind),
            List.cons_append]

theorem dedup_last (front : List α) (x : α) :
    (front ++ [x]).dedup = (front.dedup.filter fun y => decide (y ≠ x)) ++ [x] := by
  simp [dedup_behind]

theorem take_without (x : α) (items : List α) (once : items.Nodup) (room : Nat) :
    ((items.take (room + 1)).filter fun y => decide (y ≠ x)).take room =
      (items.filter fun y => decide (y ≠ x)).take room := by
  induction items generalizing room with
  | nil => rfl
  | cons first rest ih =>
      obtain ⟨absent, restOnce⟩ := List.nodup_cons.mp once
      rw [List.take_succ_cons]
      by_cases same : first = x
      · subst same
        have kept (some : List α) (inside : some ⊆ rest) : (some.filter fun y => decide (y ≠ first)) = some :=
          List.filter_eq_self.mpr fun y member => decide_eq_true fun same => absent (same ▸ inside member)
        rw [List.filter_cons_of_neg (by simp), List.filter_cons_of_neg (by simp),
          kept _ (List.take_subset room rest), kept rest (List.Subset.refl rest), List.take_take, Nat.min_self]
      · rw [List.filter_cons_of_pos (by simpa using same), List.filter_cons_of_pos (by simpa using same)]
        cases room with
        | zero => rfl
        | succ room => rw [List.take_succ_cons, List.take_succ_cons, ih restOnce room]

end Lists

-- The pattern that the last of these look-ups of a list gave.
def latest (steps : List (Prepared × Cache)) (symbols : List Text) : Option Prepared :=
  (steps.reverse.find? fun step => step.1.pattern.symbols == symbols).map Prod.fst

theorem latest_behind (steps : List (Prepared × Cache)) (step : Prepared × Cache) (symbols : List Text) :
    latest (steps ++ [step]) symbols =
      if step.1.pattern.symbols = symbols then some step.1 else latest steps symbols := by
  rw [latest, List.reverse_append, List.reverse_singleton, List.singleton_append, List.find?_cons]
  by_cases same : step.1.pattern.symbols = symbols
  · simp [same]
  · rw [beq_false_of_ne same, if_neg same]
    rfl

theorem latest_between (front between : List (Prepared × Cache)) (step : Prepared × Cache) (symbols : List Text)
    (same : step.1.pattern.symbols = symbols) (absent : ∀ other ∈ between, other.1.pattern.symbols ≠ symbols) :
    latest (front ++ step :: between) symbols = some step.1 := by
  have none : between.reverse.find? (fun other => other.1.pattern.symbols == symbols) = Option.none := by
    simpa using absent
  rw [latest, List.reverse_append, List.reverse_cons, List.append_assoc, List.find?_append, none, Option.none_or,
    List.singleton_append, List.find?_cons_of_pos (by simpa using same)]
  rfl

theorem latest_source (steps : List (Prepared × Cache)) (symbols : List Text) (prepared : Prepared)
    (given : latest steps symbols = some prepared) : ∃ after, (prepared, after) ∈ steps := by
  obtain ⟨step, found, rfl⟩ := Option.map_eq_some_iff.mp given
  exact ⟨step.2, List.mem_reverse.mp (List.mem_of_find?_eq_some found)⟩

-- What look-ups make of a cache with so much room: it keeps the lists that came last, each with the pattern that was
-- given last for it, and the next pattern has a number that none was given before.
structure Recalls (room : Nat) (lookups : List (List Text)) (steps : List (Prepared × Cache)) (cache : Cache) :
    Prop where
  capacity : cache.capacity = room
  faithful : cache.Faithful
  asked : (steps.map fun step => step.1.pattern.symbols) = lookups
  kept : (cache.recent.map fun prepared => prepared.pattern.symbols) = lookups.dedup.reverse.take room
  latest : ∀ prepared ∈ cache.recent, latest steps prepared.pattern.symbols = some prepared
  numbered : ∀ step ∈ steps, step.1.serial < cache.made

theorem empty_recalls (capacity : Nat) : Recalls (max capacity 1) [] [] (empty capacity) where
  capacity := rfl
  faithful := empty_faithful capacity
  asked := rfl
  kept := by simp [empty]
  latest _ member := absurd member List.not_mem_nil
  numbered _ member := absurd member List.not_mem_nil

theorem use_kept (cache : Cache) (lookups : List (List Text)) (prepared : Prepared)
    (kept : (cache.recent.map fun other => other.pattern.symbols) = lookups.dedup.reverse.take cache.capacity) :
    ((cache.use prepared).recent.map fun other => other.pattern.symbols) =
      (lookups ++ [prepared.pattern.symbols]).dedup.reverse.take cache.capacity := by
  have once : lookups.dedup.reverse.Nodup := List.nodup_reverse.mpr (List.nodup_dedup lookups)
  have others : ((cache.recent.filter fun other => other.pattern.symbols != prepared.pattern.symbols).map
      fun other => other.pattern.symbols) =
        (lookups.dedup.reverse.take cache.capacity).filter fun symbols => decide (symbols ≠ prepared.pattern.symbols) := by
    rw [← kept, List.filter_map]
    congr 2
    funext other
    simp [bne, beq_eq_decide]
  rw [dedup_last, List.reverse_append, List.reverse_singleton, List.singleton_append, ← List.filter_reverse,
    use, List.map_take, List.map_cons, others]
  cases cache.capacity with
  | zero => rfl
  | succ room => rw [List.take_succ_cons, List.take_succ_cons, take_without _ _ once room]

section Step

variable {room : Nat} {lookups : List (List Text)} {steps : List (Prepared × Cache)} {cache : Cache}
  (recalls : Recalls room lookups steps cache)
include recalls

theorem Recalls.use (prepared : Prepared) (genuine : prepared.pattern = Pattern.ofSymbols prepared.pattern.symbols)
    (made : Nat) (older : cache.made ≤ made) (numbered : prepared.serial < made) (after : Cache) :
    Recalls room (lookups ++ [prepared.pattern.symbols]) (steps ++ [(prepared, after)])
      { cache.use prepared with made := made } where
  capacity := recalls.capacity
  faithful := use_faithful cache prepared recalls.faithful genuine
  asked := by rw [List.map_append, recalls.asked, List.map_singleton]
  kept := recalls.capacity ▸ use_kept cache lookups prepared (recalls.capacity.symm ▸ recalls.kept)
  latest other member := by
    rw [latest_behind]
    rcases mem_use cache prepared other member with rfl | ⟨kept, different⟩
    · exact if_pos rfl
    · rw [if_neg different.symm]
      exact recalls.latest other kept
  numbered step member := by
    rcases List.mem_append.mp member with before | here
    · exact Nat.lt_of_lt_of_le (recalls.numbered step before) older
    · rw [List.mem_singleton.mp here]
      exact numbered

theorem Recalls.lookup_cases (symbols : List Text) :
    (symbols ∈ lookups.dedup.reverse.take room ∧ ∃ prepared ∈ cache.recent, prepared.pattern.symbols = symbols ∧
        cache.lookup symbols = (prepared, cache.use prepared)) ∨
      symbols ∉ lookups.dedup.reverse.take room ∧
        cache.lookup symbols = (⟨cache.made, Pattern.ofSymbols symbols⟩,
          { cache.use ⟨cache.made, Pattern.ofSymbols symbols⟩ with made := cache.made + 1 }) := by
  rw [← recalls.kept]
  cases found : cache.find? symbols with
  | some prepared =>
      have member := List.mem_of_find?_eq_some found
      have same : prepared.pattern.symbols = symbols := by simpa using List.find?_some found
      exact .inl ⟨same ▸ List.mem_map_of_mem member, prepared, member, same, by rw [Cache.lookup, found]⟩
  | none => exact .inr ⟨by simpa [find?] using found, by rw [Cache.lookup, found]⟩

theorem Recalls.lookup (symbols : List Text) :
    Recalls room (lookups ++ [symbols]) (steps ++ [cache.lookup symbols]) (cache.lookup symbols).2 := by
  rcases recalls.lookup_cases symbols with ⟨-, prepared, kept, rfl, looked⟩ | ⟨-, looked⟩
  · obtain ⟨after, member⟩ := latest_source _ _ _ (recalls.latest prepared kept)
    rw [looked]
    exact recalls.use prepared (recalls.faithful prepared kept) cache.made (Nat.le_refl _)
      (recalls.numbered _ member) _
  · rw [looked]
    exact recalls.use ⟨cache.made, Pattern.ofSymbols symbols⟩ rfl (cache.made + 1) (Nat.le_succ _)
      (Nat.lt_succ_self _) _

theorem Recalls.size : cache.size = min room lookups.dedup.length := by
  rw [Cache.size, ← List.length_map fun prepared : Prepared => prepared.pattern.symbols, recalls.kept,
    List.length_take, List.length_reverse]

end Step

def after (cache : Cache) (lookups : List (List Text)) : Cache :=
  lookups.foldl (fun cache symbols => (cache.lookup symbols).2) cache

theorem run_append (cache : Cache) (front back : List (List Text)) :
    cache.run (front ++ back) = cache.run front ++ (cache.after front).run back := by
  induction front generalizing cache with
  | nil => rfl
  | cons symbols rest ih =>
      rw [List.cons_append, run, run, ih, List.cons_append]
      rfl

theorem Recalls.run {room : Nat} {lookups : List (List Text)} {steps : List (Prepared × Cache)} {cache : Cache}
    (recalls : Recalls room lookups steps cache) (more : List (List Text)) :
    Recalls room (lookups ++ more) (steps ++ cache.run more) (cache.after more) := by
  induction more generalizing lookups steps cache with
  | nil => simpa [Cache.run, after] using recalls
  | cons symbols rest ih =>
      have later := ih (recalls.lookup symbols)
      rwa [List.append_assoc, List.append_assoc] at later

theorem run_recalls (capacity : Nat) (lookups : List (List Text)) :
    Recalls (max capacity 1) lookups ((empty capacity).run lookups) ((empty capacity).after lookups) :=
  (empty_recalls capacity).run lookups

-- Where a list was looked up last, the lists that came since stand in front of it.
theorem recent_iff (symbols : List Text) (front between : List (List Text)) (absent : symbols ∉ between) (room : Nat) :
    symbols ∈ (front ++ symbols :: between).dedup.reverse.take room ↔ between.dedup.length < room := by
  rw [dedup_behind, List.dedup_cons_of_notMem absent, List.reverse_append, List.reverse_cons, List.append_assoc,
    List.singleton_append, mem_take_behind symbols _ _ (by simpa using absent), List.length_reverse]

theorem split_at_last (symbols : List Text) (lookups : List (List Text)) (member : symbols ∈ lookups) :
    ∃ front between, lookups = front ++ symbols :: between ∧ symbols ∉ between := by
  obtain ⟨between, front, split, absent⟩ := List.eq_append_cons_of_mem (List.mem_reverse.mpr member)
  refine ⟨front.reverse, between.reverse, ?_, by simpa using absent⟩
  rw [← List.reverse_reverse lookups, split, List.reverse_append, List.reverse_cons, List.append_assoc,
    List.singleton_append]

theorem latest_at (front between : List (List Text)) (steps : List (Prepared × Cache)) (symbols : List Text)
    (asked : (steps.map fun step => step.1.pattern.symbols) = front ++ symbols :: between)
    (absent : symbols ∉ between) :
    latest steps symbols = steps[front.length]?.map Prod.fst := by
  obtain ⟨early, others, rfl, fronts, same⟩ := List.map_eq_append_iff.mp asked
  obtain ⟨step, late, rfl, here, betweens⟩ := List.map_eq_cons_iff.mp same
  rw [latest_between early late step symbols here, ← fronts, List.length_map]
  · simp
  · intro other member equal
    exact absent (betweens ▸ equal ▸ List.mem_map_of_mem member)

section Reuse

variable {room : Nat} {lookups : List (List Text)} {steps : List (Prepared × Cache)} {cache : Cache}
  (recalls : Recalls room lookups steps cache) (symbols : List Text)
include recalls

theorem Recalls.same_iff (front between : List (List Text)) (split : lookups = front ++ symbols :: between)
    (absent : symbols ∉ between) :
    steps[front.length]?.map (fun step => step.1.serial) = some (cache.lookup symbols).1.serial ↔
      between.dedup.length < room := by
  rw [← recent_iff symbols front between absent room, ← split]
  rcases recalls.lookup_cases symbols with ⟨kept, prepared, member, rfl, looked⟩ | ⟨gone, looked⟩
  · have last := recalls.latest prepared member
    rw [latest_at front between _ _ (recalls.asked.trans split) absent] at last
    refine iff_of_true ?_ kept
    rw [looked]
    simpa using congrArg (Option.map Prepared.serial) last
  · refine iff_of_false (fun same => ?_) gone
    obtain ⟨step, found, same⟩ := Option.map_eq_some_iff.mp same
    have older := recalls.numbered step (List.mem_of_getElem? found)
    rw [looked] at same
    exact absurd same (Nat.ne_of_lt older)

theorem Recalls.fresh
    (far : ∀ front between, lookups = front ++ symbols :: between → symbols ∉ between → room ≤ between.dedup.length) :
    ∀ step ∈ steps, step.1.serial ≠ (cache.lookup symbols).1.serial := by
  intro step member
  rcases recalls.lookup_cases symbols with ⟨kept, -⟩ | ⟨-, looked⟩
  · have asked : symbols ∈ lookups := by simpa using List.mem_of_mem_take kept
    obtain ⟨front, between, split, absent⟩ := split_at_last symbols lookups asked
    rw [split, recent_iff symbols front between absent] at kept
    exact absurd kept (Nat.not_lt.mpr (far front between split absent))
  · rw [looked]
    exact Nat.ne_of_lt (recalls.numbered step member)

end Reuse

theorem run_is_least_recently_used (capacity : Nat) (before : List (List Text)) (symbols : List Text)
    (later : List (List Text)) :
    let room := max capacity 1
    let earlier := (empty capacity).run before
    ∃ prepared cache following,
      (empty capacity).run (before ++ symbols :: later) = earlier ++ (prepared, cache) :: following ∧
        (earlier.map fun step => step.1.pattern.symbols) = before ∧
        prepared.pattern = Pattern.ofSymbols symbols ∧ prepared.pattern.symbols = symbols ∧
        cache.size = min room (before ++ [symbols]).dedup.length ∧
        (∀ front between, before = front ++ symbols :: between → symbols ∉ between →
          (earlier[front.length]?.map (fun step => step.1.serial) = some prepared.serial ↔
            between.dedup.length < room)) ∧
        ((∀ front between, before = front ++ symbols :: between → symbols ∉ between → room ≤ between.dedup.length) →
          ∀ step ∈ earlier, step.1.serial ≠ prepared.serial) := by
  intro room earlier
  have recalls := run_recalls capacity before
  generalize reached : (empty capacity).after before = cache at recalls
  have given := lookup_pattern cache symbols recalls.faithful
  refine ⟨(cache.lookup symbols).1, (cache.lookup symbols).2, (cache.lookup symbols).2.run later, ?_, recalls.asked,
    given, given ▸ rfl, (recalls.lookup symbols).size, recalls.same_iff symbols, recalls.fresh symbols⟩
  rw [run_append, reached]
  rfl

-- With room for two, the list that was used again stays, though it came first, and the other one goes.
theorem run_keeps_used_again :
    let before := [[['a']], [['b']], [['a']], [['c']]]
    let earlier := (empty 2).run before
    (∃ prepared cache following, (empty 2).run (before ++ [['a']] :: []) = earlier ++ (prepared, cache) :: following ∧
      earlier[2]?.map (fun step => step.1.serial) = some prepared.serial) ∧
    ∃ prepared cache following, (empty 2).run (before ++ [['b']] :: []) = earlier ++ (prepared, cache) :: following ∧
      ∀ step ∈ earlier, step.1.serial ≠ prepared.serial := by
  intro before earlier
  constructor
  · obtain ⟨prepared, cache, following, run, -, -, -, -, same, -⟩ :=
      run_is_least_recently_used 2 before [['a']] []
    exact ⟨prepared, cache, following, run,
      (same [[['a']], [['b']]] [[['c']]] rfl (by decide)).mpr (by decide)⟩
  · obtain ⟨prepared, cache, following, run, -, -, -, -, -, fresh⟩ :=
      run_is_least_recently_used 2 before [['b']] []
    refine ⟨prepared, cache, following, run, fresh fun front between split absent => ?_⟩
    have once : front = [[['a']]] ∧ between = [[['a']], [['c']]] := by
      rcases front with _ | ⟨first, _ | ⟨second, rest⟩⟩
      · simp [before] at split
      · simpa [before, eq_comm] using split
      · have member : [['b']] ∈ [[['a']], [['c']]] := by
          rw [(List.cons.inj (List.cons.inj split).2).2]
          exact List.mem_append_right rest List.mem_cons_self
        exact absurd member (by decide)
    rw [once.2]
    decide

end BlockSearch.Symbol.Cache
