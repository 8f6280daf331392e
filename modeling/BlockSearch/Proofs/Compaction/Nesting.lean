import BlockSearch.Proofs.Compaction.Lines

set_option autoImplicit false

namespace BlockSearch.Compaction

namespace Scale

variable (lines : List Line)

theorem base_least (nonempty : lines ≠ []) :
    (∃ least ∈ lines, least.width = baseOf lines) ∧ ∀ line ∈ lines, baseOf lines ≤ line.width := by
  cases least : (lines.map Line.width).min? with
  | none => exact absurd (List.map_eq_nil_iff.mp (List.min?_eq_none_iff.mp least)) nonempty
  | some width =>
      obtain ⟨member, lowest⟩ := List.min?_eq_some_iff.mp least
      have base : baseOf lines = width := by rw [baseOf, least, Option.getD_some]
      rw [base]
      exact ⟨List.mem_map.mp member, fun line among => lowest _ (List.mem_map_of_mem among)⟩

theorem step_cases (base : Nat) :
    (stepOf base lines = none ∧ ∀ line ∈ lines, line.width ≤ base) ∨
      ∃ deeper ∈ lines, base < deeper.width ∧ stepOf base lines = some (deeper.width - base) ∧
        ∀ line ∈ lines, base < line.width → deeper.width ≤ line.width := by
  cases least : stepOf base lines with
  | none =>
      refine .inl ⟨rfl, fun line among => ?_⟩
      have none := List.min?_eq_none_iff.mp least
      rw [List.filter_eq_nil_iff] at none
      have above := none _ (List.mem_map_of_mem among)
      simp only [decide_eq_true_eq] at above
      omega
  | some step =>
      obtain ⟨member, lowest⟩ := List.min?_eq_some_iff.mp least
      obtain ⟨among, above⟩ := List.mem_filter.mp member
      obtain ⟨deeper, present, rfl⟩ := List.mem_map.mp among
      rw [decide_eq_true_eq] at above
      refine .inr ⟨deeper, present, by omega, rfl, fun line among higher => ?_⟩
      have far : 0 < line.width - base := by omega
      have most := lowest _ (List.mem_filter.mpr ⟨List.mem_map_of_mem among, decide_eq_true far⟩)
      omega

end Scale

-- A column where a level of indentation begins: some steps above the least indented line, each as wide as that to the
-- next deeper line.
def IsLevel (lines : List Line) (column : Nat) : Prop :=
  ∃ least ∈ lines, ∃ deeper ∈ lines, ∃ steps,
    (∀ line ∈ lines, least.width ≤ line.width) ∧ least.width < deeper.width ∧
      (∀ line ∈ lines, least.width < line.width → deeper.width ≤ line.width) ∧
        column = least.width + steps * (deeper.width - least.width)

theorem is_level_iff (lines : List Line) (column step : Nat) (some : Scale.stepOf (Scale.baseOf lines) lines = some step) :
    IsLevel lines column ↔ ∃ steps, column = Scale.baseOf lines + steps * step := by
  rcases Scale.step_cases lines (Scale.baseOf lines) with ⟨none, -⟩ | ⟨deeper, present, above, same, next⟩
  · rw [none] at some
    cases some
  · obtain rfl := Option.some.inj (some.symm.trans same)
    obtain ⟨⟨least, among, base⟩, lowest⟩ := Scale.base_least lines (List.ne_nil_of_mem present)
    constructor
    · rintro ⟨low, lowAmong, other, otherAmong, steps, lowLowest, deep, otherNext, rfl⟩
      have lowBase : low.width = Scale.baseOf lines :=
        Nat.le_antisymm (base ▸ lowLowest least among) (lowest low lowAmong)
      rw [lowBase] at deep otherNext ⊢
      have width : other.width = deeper.width :=
        Nat.le_antisymm (otherNext deeper present above) (next other otherAmong deep)
      exact ⟨steps, by rw [width]⟩
    · rintro ⟨steps, rfl⟩
      rw [← base] at lowest above next ⊢
      exact ⟨least, among, deeper, present, steps, lowest, above, next, rfl⟩

section Depth

variable (lines : List Line) (first second : Line)

theorem depth_of_least (firstAmong : first ∈ lines) (lowest : ∀ line ∈ lines, first.width ≤ line.width) :
    (Scale.ofLines lines).depth first = 0 := by
  obtain ⟨⟨least, among, base⟩, -⟩ := Scale.base_least lines (List.ne_nil_of_mem firstAmong)
  have none : first.width - Scale.baseOf lines = 0 := Nat.sub_eq_zero_of_le (base ▸ lowest least among)
  simp only [Scale.depth, Scale.ofLines, none, Nat.zero_div]
  split <;> rfl

theorem depth_le (less : first.width ≤ second.width) :
    (Scale.ofLines lines).depth first ≤ (Scale.ofLines lines).depth second := by
  simp only [Scale.depth]
  split
  · exact Nat.div_le_div_right (Nat.sub_le_sub_right less _)
  · exact Nat.le_refl 0

theorem depth_one (deep : 0 < (Scale.ofLines lines).depth first) :
    ∃ next ∈ lines, (Scale.ofLines lines).depth next = 1 := by
  rcases Scale.step_cases lines (Scale.baseOf lines) with ⟨none, -⟩ | ⟨deeper, present, above, some, -⟩
  · simp [Scale.depth, Scale.ofLines, none] at deep
  · refine ⟨deeper, present, ?_⟩
    simp only [Scale.depth, Scale.ofLines, some]
    exact Nat.div_self (Nat.sub_pos_of_lt above)

theorem depth_lt_iff (firstAmong : first ∈ lines) (secondAmong : second ∈ lines) (less : first.width < second.width) :
    (Scale.ofLines lines).depth first < (Scale.ofLines lines).depth second ↔
      ∃ column, IsLevel lines column ∧ first.width < column ∧ column ≤ second.width := by
  have above := (Scale.base_least lines (List.ne_nil_of_mem firstAmong)).2 first firstAmong
  rcases Scale.step_cases lines (Scale.baseOf lines) with ⟨-, flat⟩ | ⟨deeper, present, deep, some, next⟩
  · have bound := flat second secondAmong
    omega
  · have positive : 0 < deeper.width - Scale.baseOf lines := by omega
    generalize deeper.width - Scale.baseOf lines = step at some positive
    simp only [Scale.depth, Scale.ofLines, some, is_level_iff lines _ step some]
    generalize Scale.baseOf lines = base at above
    constructor
    · intro fewer
      have reaches := (Nat.div_lt_iff_lt_mul positive).mp fewer
      have within := Nat.div_mul_le_self (second.width - base) step
      exact ⟨base + (second.width - base) / step * step, ⟨_, rfl⟩, by omega, by omega⟩
    · rintro ⟨column, ⟨steps, rfl⟩, before, behind⟩
      have fewer : (first.width - base) / step < steps := (Nat.div_lt_iff_lt_mul positive).mpr (by omega)
      have within : steps ≤ (second.width - base) / step := (Nat.le_div_iff_mul_le positive).mpr (by omega)
      exact Nat.lt_of_lt_of_le fewer within

end Depth

def leadingTabs (line : Text) : Nat := (line.takeWhile (· == '\t')).length

theorem leading_tabs_code (depth : Nat) (body : Text) (code : IsCode body) :
    leadingTabs (List.replicate depth '\t' ++ body) = depth := by
  have tabs : ∀ c ∈ List.replicate depth '\t', (c == '\t') = true := fun c member =>
    beq_iff_eq.mpr (List.eq_of_mem_replicate member)
  obtain ⟨first, rest, rfl⟩ := List.exists_cons_of_ne_nil code.nonempty
  have noTab : (first == '\t') = false := by
    have starts := code.starts first rfl
    rw [CharClass.isIndent, Bool.or_eq_false_iff] at starts
    exact starts.2
  rw [leadingTabs, List.takeWhile_append_of_pos tabs]
  simp [noTab]

theorem compact_line (text : Text) (number : Nat) (line : Line)
    (found : (keptLines (withoutDelimited text))[number]? = some line) :
    ∃ shown, (Text.pieces '\n' (compact text))[number]? = some shown ∧
      leadingTabs shown = (Scale.ofLines (keptLines (withoutDelimited text))).depth line ∧
        shown = List.replicate (leadingTabs shown) '\t' ++ line.body := by
  have member := List.mem_of_getElem? found
  have code := kept_line_code _ line member
  have tabs := leading_tabs_code ((Scale.ofLines (keptLines (withoutDelimited text))).depth line) line.body code
  rw [compact, pieces_laid_out _ (kept_line_code _) (List.ne_nil_of_mem member), List.getElem?_map, found]
  exact ⟨_, rfl, tabs, by rw [Line.laidOut, tabs]⟩

theorem compact_nests (text : Text) (i j : Nat) (first second : Line) :
    let lines := keptLines (withoutDelimited text)
    lines[i]? = some first → lines[j]? = some second →
      ∃ shownFirst shownSecond,
        (Text.pieces '\n' (compact text))[i]? = some shownFirst ∧
        (Text.pieces '\n' (compact text))[j]? = some shownSecond ∧
        shownFirst = List.replicate (leadingTabs shownFirst) '\t' ++ first.body ∧
        shownSecond = List.replicate (leadingTabs shownSecond) '\t' ++ second.body ∧
        (first.width = second.width → leadingTabs shownFirst = leadingTabs shownSecond) ∧
        (first.width < second.width → leadingTabs shownFirst ≤ leadingTabs shownSecond ∧
          (leadingTabs shownFirst < leadingTabs shownSecond ↔
            ∃ column, IsLevel lines column ∧ first.width < column ∧ column ≤ second.width)) ∧
        ((∀ line ∈ lines, first.width ≤ line.width) → leadingTabs shownFirst = 0) := by
  intro lines foundFirst foundSecond
  obtain ⟨shownFirst, atFirst, firstTabs, firstBody⟩ := compact_line text i first foundFirst
  obtain ⟨shownSecond, atSecond, secondTabs, secondBody⟩ := compact_line text j second foundSecond
  have firstAmong : first ∈ lines := List.mem_of_getElem? foundFirst
  have secondAmong : second ∈ lines := List.mem_of_getElem? foundSecond
  refine ⟨shownFirst, shownSecond, atFirst, atSecond, firstBody, secondBody, ?_, ?_, ?_⟩
  · intro same
    rw [firstTabs, secondTabs, Scale.depth, Scale.depth, same]
  · intro less
    rw [firstTabs, secondTabs]
    exact ⟨depth_le lines first second (Nat.le_of_lt less), depth_lt_iff lines first second firstAmong secondAmong less⟩
  · intro lowest
    rw [firstTabs]
    exact depth_of_least lines first firstAmong lowest

theorem compact_nests_in_branch :
    let text := "if a \x7b\n  // why\n    b(\n       c)\n\x7d\n".toList
    let lines := keptLines (withoutDelimited text)
    lines[0]? = some ⟨0, "if a \x7b".toList⟩ ∧ lines[1]? = some ⟨4, "b(".toList⟩ ∧
      ∃ shownFirst shownSecond,
        (Text.pieces '\n' (compact text))[0]? = some shownFirst ∧
        (Text.pieces '\n' (compact text))[1]? = some shownSecond ∧
        leadingTabs shownFirst = 0 ∧ leadingTabs shownFirst < leadingTabs shownSecond := by
  intro text lines
  have first : lines[0]? = some ⟨0, "if a \x7b".toList⟩ := by decide +kernel
  have second : lines[1]? = some ⟨4, "b(".toList⟩ := by decide +kernel
  obtain ⟨shownFirst, shownSecond, atFirst, atSecond, -, -, -, deeper, least⟩ :=
    compact_nests text 0 1 _ _ first second
  have level : IsLevel lines 4 :=
    ⟨⟨0, "if a \x7b".toList⟩, by decide +kernel, ⟨4, "b(".toList⟩, by decide +kernel, 1, by decide +kernel, by decide,
      by decide +kernel, rfl⟩
  exact ⟨first, second, shownFirst, shownSecond, atFirst, atSecond, least (by decide +kernel),
    (deeper (by decide)).2.mpr ⟨4, level, by decide, by decide⟩⟩

-- Where the step from the least indented line is not the smallest one, a deeper line gets no more tabs.
theorem deeper_line_flattened :
    let text := "a\n    b\n      c\n".toList
    keptLines (withoutDelimited text) = [⟨0, ['a']⟩, ⟨4, ['b']⟩, ⟨6, ['c']⟩] ∧
      Text.pieces '\n' (compact text) = [['a'], ['\t', 'b'], ['\t', 'c']] := by
  decide +kernel

end BlockSearch.Compaction
