import BlockSearch.Proofs.Glob.Tokens

set_option autoImplicit false

namespace BlockSearch.Glob

section Front

variable (more : Text)

theorem read_ranges_front (ranges : List (Char × Char)) (atFront pending : Bool) (count : Nat) (text : Text)
    (read : List (Char × Char) × Nat) (closed : readRanges ranges atFront pending count text = .ok read) :
    readRanges ranges atFront pending count (text ++ more) = .ok read ∧ read.2 ≤ count + text.length := by
  fun_induction readRanges ranges atFront pending count text with
  | case1 => cases closed
  | case2 ranges atFront pending count c rest closing =>
      cases closed
      simp only [List.cons_append, readRanges, closing, and_self, if_true, true_and, List.length_cons]
      omega
  | case3 ranges atFront pending count c rest open' dash ih =>
      have behind := ih closed
      simp only [List.cons_append, readRanges, if_neg open', if_pos dash, List.length_cons]
      exact ⟨behind.1, by omega⟩
  | case4 ranges atFront pending count c rest open' noDash waits extended longer ih =>
      have behind := ih closed
      simp only [List.cons_append, readRanges, if_neg open', if_neg noDash, if_pos waits, longer, List.length_cons]
      exact ⟨behind.1, by omega⟩
  | case5 => cases closed
  | case6 ranges atFront pending count c rest open' noDash free ih =>
      have behind := ih closed
      simp only [List.cons_append, readRanges, if_neg open', if_neg noDash, if_neg free, List.length_cons]
      exact ⟨behind.1, by omega⟩

theorem read_ranges_open (ranges : List (Char × Char)) (atFront pending : Bool) (count : Nat) (text : Text)
    (free : ']' ∉ text) : ∃ cause, readRanges ranges atFront pending count text = .error cause := by
  fun_induction readRanges ranges atFront pending count text with
  | case1 => exact ⟨_, rfl⟩
  | case2 ranges atFront pending count c rest closing =>
      rw [closing.1] at free
      exact absurd List.mem_cons_self free
  | case3 ranges atFront pending count c rest open' dash ih => exact ih fun later => free (List.mem_cons_of_mem _ later)
  | case4 ranges atFront pending count c rest open' noDash waits extended longer ih =>
      exact ih fun later => free (List.mem_cons_of_mem _ later)
  | case5 ranges atFront pending count c rest open' noDash waits cause wrong => exact ⟨cause, rfl⟩
  | case6 ranges atFront pending count c rest open' noDash free' ih =>
      exact ih fun later => free (List.mem_cons_of_mem _ later)

-- A range that is the wrong way round stays so, and a class that is open stays open where no bracket follows.
theorem read_ranges_fault (ranges : List (Char × Char)) (atFront pending : Bool) (count : Nat) (text : Text)
    (cause : Cause) (fault : readRanges ranges atFront pending count text = .error cause)
    (lasting : cause ≠ .unclosedClass ∨ ']' ∉ more) :
    ∃ cause, readRanges ranges atFront pending count (text ++ more) = .error cause := by
  fun_induction readRanges ranges atFront pending count text with
  | case1 ranges atFront pending count =>
      cases fault
      exact read_ranges_open _ _ _ _ more (lasting.resolve_left fun other => other rfl)
  | case2 ranges atFront pending count c rest closing => cases fault
  | case3 ranges atFront pending count c rest open' dash ih =>
      simpa only [List.cons_append, readRanges, if_neg open', if_pos dash] using ih fault
  | case4 ranges atFront pending count c rest open' noDash waits extended longer ih =>
      simpa only [List.cons_append, readRanges, if_neg open', if_neg noDash, if_pos waits, longer] using ih fault
  | case5 ranges atFront pending count c rest open' noDash waits cause wrong =>
      exact ⟨cause, by simp only [List.cons_append, readRanges, if_neg open', if_neg noDash, if_pos waits, wrong]⟩
  | case6 ranges atFront pending count c rest open' noDash free ih =>
      simpa only [List.cons_append, readRanges, if_neg open', if_neg noDash, if_neg free] using ih fault

theorem ranges_token_front (negated : Bool) (inner : Text) (busy : Nat) (token : Token)
    (told : View.rangesToken negated inner = .ok (busy, token)) :
    View.rangesToken negated (inner ++ more) = .ok (busy, token) ∧
      busy ≤ (if negated then 1 else 0) + inner.length := by
  unfold View.rangesToken at told ⊢
  cases closed : readRanges [] true false (if negated then 1 else 0) inner with
  | error cause => simp [closed] at told
  | ok read =>
      obtain ⟨same, short⟩ := read_ranges_front more _ _ _ _ _ _ closed
      rw [closed] at told
      cases told
      rw [same]
      exact ⟨rfl, short⟩

theorem ranges_token_fault (negated : Bool) (inner : Text) (cause : Cause)
    (told : View.rangesToken negated inner = .error cause) (lasting : cause ≠ .unclosedClass ∨ ']' ∉ more) :
    ∃ cause, View.rangesToken negated (inner ++ more) = .error cause := by
  unfold View.rangesToken at told ⊢
  cases fault : readRanges [] true false (if negated then 1 else 0) inner with
  | ok read => simp [fault] at told
  | error other =>
      rw [fault] at told
      cases told
      obtain ⟨cause, longer⟩ := read_ranges_fault more _ _ _ _ _ _ fault lasting
      exact ⟨cause, by rw [longer]⟩

theorem star_token_front (view : View) (d : Char) (text : Text) (noStar : d ≠ '*') :
    view.starToken (text ++ d :: more) = view.starToken (text ++ [d]) := by
  cases text with
  | nil => rw [List.nil_append, List.nil_append, star_token_one view d _ noStar, star_token_one view d _ noStar]
  | cons c text =>
      rw [List.cons_append, List.cons_append]
      by_cases star : c = '*'
      · have next : (text ++ d :: more).head? = (text ++ [d]).head? := by cases text <;> rfl
        rw [star, star_token_two, star_token_two, next]
      · rw [star_token_one view c _ star, star_token_one view c _ star]

theorem star_token_count (view : View) (rest : Text) : (view.starToken rest).1 ≤ rest.length := by
  cases rest with
  | nil => exact Nat.le_refl 0
  | cons c rest =>
      by_cases star : c = '*'
      · rw [star, star_token_two]
        cases rest <;> unfold View.twoStarsToken <;> grind
      · rw [star_token_one view c _ star]
        exact Nat.zero_le _

theorem class_token_front (c : Char) (text : Text) (busy : Nat) (token : Token)
    (told : View.classToken (c :: text) = .ok (busy, token)) :
    View.classToken (c :: text ++ more) = .ok (busy, token) ∧ busy ≤ (c :: text).length := by
  obtain ⟨negated, ranges⟩ := class_token_cons c
  rw [ranges] at told
  obtain ⟨same, short⟩ := ranges_token_front more negated _ busy token told
  rw [List.cons_append, ranges, ← List.append_assoc]
  refine ⟨same, Nat.le_trans short ?_⟩
  cases negated <;> simp [Nat.add_comm]

theorem class_token_fault (c : Char) (text : Text) (cause : Cause) (told : View.classToken (c :: text) = .error cause)
    (lasting : cause ≠ .unclosedClass ∨ ']' ∉ more) :
    ∃ cause, View.classToken (c :: text ++ more) = .error cause := by
  obtain ⟨negated, ranges⟩ := class_token_cons c
  rw [ranges] at told
  obtain ⟨other, same⟩ := ranges_token_fault more negated _ cause told lasting
  exact ⟨other, by rw [List.cons_append, ranges, ← List.append_assoc, same]⟩

theorem token_front (view : View) (c d : Char) (text : Text) (noStar : d ≠ '*') (busy : Nat) (token : Token)
    (told : view.token c (text ++ [d]) = .ok (busy, token)) :
    view.token c (text ++ d :: more) = .ok (busy, token) ∧ busy ≤ text.length + 1 := by
  have short : (text ++ [d]).length = text.length + 1 := by simp
  rcases view.token_cases c with ⟨-, star⟩ | ⟨-, bracket⟩ | ⟨-, escape⟩ | ⟨-, -, single⟩
  · have count := star_token_count view (text ++ [d])
    rw [star, Except.ok.injEq] at told
    rw [star, star_token_front more view d text noStar, told]
    rw [told, short] at count
    exact ⟨rfl, count⟩
  · obtain ⟨e, behind, same⟩ : ∃ e behind, text ++ [d] = e :: behind := by cases text <;> exact ⟨_, _, rfl⟩
    rw [bracket, same] at told
    obtain ⟨longer, count⟩ := class_token_front more e behind busy token told
    rw [← same, short] at count
    rw [bracket, List.append_cons, same]
    exact ⟨longer, count⟩
  · rw [escape] at told ⊢
    cases text <;> cases told <;> exact ⟨rfl, by simp⟩
  · rw [single] at told ⊢
    cases told
    exact ⟨rfl, Nat.zero_le _⟩

theorem token_fault (view : View) (c d : Char) (text : Text) (cause : Cause)
    (told : view.token c (text ++ [d]) = .error cause) (lasting : cause ≠ .unclosedClass ∨ ']' ∉ more) :
    ∃ cause, view.token c (text ++ d :: more) = .error cause := by
  rcases view.token_cases c with ⟨-, star⟩ | ⟨-, bracket⟩ | ⟨-, escape⟩ | ⟨-, -, single⟩
  · rw [star] at told
    cases told
  · obtain ⟨e, behind, same⟩ : ∃ e behind, text ++ [d] = e :: behind := by cases text <;> exact ⟨_, _, rfl⟩
    rw [bracket, same] at told
    obtain ⟨other, longer⟩ := class_token_fault more e behind cause told lasting
    exact ⟨other, by rw [bracket, List.append_cons, same, longer]⟩
  · rw [escape] at told
    cases text <;> cases told
  · rw [single] at told
    cases told

-- The characters that a front ends with; what follows them makes no difference to what they begin.
def EndsFront (c : Char) : Prop := c ≠ '*' ∧ c ≠ '[' ∧ c ≠ '\x5c'

instance (c : Char) : Decidable (EndsFront c) := inferInstanceAs (Decidable (_ ∧ _ ∧ _))

theorem token_last (view : View) (c : Char) (ends : EndsFront c) : view.token c more = .ok (0, View.singleToken c) := by
  obtain ⟨noStar, noBracket, noEscape⟩ := ends
  simp [View.token, noStar, noBracket, noEscape]

section Reading

variable (dialect : Dialect) (strict : dialect.loneBrackets = false) (c : Char) (ends : EndsFront c)

include strict ends in
theorem read_all_last (state : State) :
    readAll dialect 0 state (c :: more) =
      match readAll dialect 0 state [c] with
      | .ok last => readAll dialect 0 last more
      | .error cause => .error cause := by
  rw [read_all_token dialect strict, read_all_token dialect strict, token_last more _ c ends, token_last [] _ c ends]
  dsimp only
  cases state.take (View.singleToken c) <;> rfl

include strict ends in
theorem read_all_front (busy : Nat) (state last : State) (text : Text) (within : busy ≤ text.length + 1)
    (read : readAll dialect busy state (text ++ [c]) = .ok last) :
    readAll dialect busy state (text ++ c :: more) = readAll dialect 0 last more := by
  induction text generalizing busy state with
  | nil =>
      cases busy with
      | zero =>
          rw [List.nil_append] at read ⊢
          rw [read_all_last more dialect strict c ends, read]
      | succ busy =>
          obtain rfl : busy = 0 := by simpa using within
          cases read
          rfl
  | cons d text ih =>
      cases busy with
      | succ busy => exact ih busy { state with previous := some d } (Nat.le_of_succ_le_succ within) read
      | zero =>
          obtain ⟨busy, token, next, told, taken, behind⟩ := read_all_step dialect strict state last d (text ++ [c]) read
          obtain ⟨longer, short⟩ := token_front more _ d c text ends.1 busy token told
          rw [List.cons_append, read_all_taken dialect strict state next d _ busy token longer taken]
          exact ih busy { next with previous := some d } short behind

include strict ends in
theorem read_all_fault (busy : Nat) (state : State) (text : Text) (within : busy ≤ text.length + 1) (cause : Cause)
    (fault : readAll dialect busy state (text ++ [c]) = .error cause) (lasting : cause ≠ .unclosedClass ∨ ']' ∉ more) :
    ∃ cause, readAll dialect busy state (text ++ c :: more) = .error cause := by
  induction text generalizing busy state with
  | nil =>
      cases busy with
      | zero =>
          rw [List.nil_append] at fault ⊢
          exact ⟨cause, by rw [read_all_last more dialect strict c ends, fault]⟩
      | succ busy =>
          obtain rfl : busy = 0 := by simpa using within
          cases fault
  | cons d text ih =>
      cases busy with
      | succ busy => exact ih busy { state with previous := some d } (Nat.le_of_succ_le_succ within) fault
      | zero =>
          rw [List.cons_append, read_all_token dialect strict] at fault ⊢
          cases told : state.view.token d (text ++ [c]) with
          | error other =>
              rw [told] at fault
              cases fault
              obtain ⟨later, longer⟩ := token_fault more _ d c text cause told lasting
              exact ⟨later, by rw [longer]⟩
          | ok step =>
              obtain ⟨busy, token⟩ := step
              obtain ⟨longer, short⟩ := token_front more _ d c text ends.1 busy token told
              rw [told] at fault
              rw [longer]
              dsimp only at fault ⊢
              cases taken : state.take token with
              | error other => exact ⟨other, rfl⟩
              | ok next =>
                  rw [taken] at fault
                  exact ih busy { next with previous := some d } short fault

end Reading

theorem read_all_previous (dialect : Dialect) (busy : Nat) (state last : State) (text : Text)
    (read : readAll dialect busy state text = .ok last) : last.previous = text.getLast?.or state.previous := by
  induction text generalizing busy state with
  | nil =>
      cases busy <;> cases read <;> rfl
  | cons c text ih =>
      have onward (next : State) (busy : Nat)
          (behind : readAll dialect busy { next with previous := some c } text = .ok last) :
          last.previous = (c :: text).getLast?.or state.previous := by
        rw [ih busy _ behind, List.getLast?_cons]
        cases text.getLast? <;> rfl
      cases busy with
      | succ busy => exact onward state busy read
      | zero =>
          simp only [readAll] at read
          split at read
          · rename_i busy next step
            exact onward next busy read
          · cases read

end Front

end BlockSearch.Glob
