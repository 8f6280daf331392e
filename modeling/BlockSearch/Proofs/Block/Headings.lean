import BlockSearch.Proofs.Block.Floor
import Mathlib.Data.List.TakeWhile

set_option autoImplicit false

namespace BlockSearch

theorem Text.first_line_cases (text : Text) :
    '\n' ∉ text ∨ ∃ below, text = text.takeWhile (· != '\n') ++ '\n' :: below := by
  have cut := (List.takeWhile_append_dropWhile (p := (· != '\n')) (l := text)).symm
  cases left : text.dropWhile (· != '\n') with
  | nil =>
      left
      intro member
      have passed := List.dropWhile_eq_nil_iff.mp left _ member
      simp at passed
  | cons c below =>
      have newline : c = '\n' := by
        have stopped := List.head?_dropWhile_not (· != '\n') text
        simpa [left] using stopped
      rw [left, newline] at cut
      exact .inr ⟨below, cut⟩

namespace Block

open BlockSearch.Symbol (Pattern Occurrence)

-- A symbol between the text before it and the text behind it: near to the beginning of its line, not quoted, indexed,
-- passed or accessed, and with a brace behind it on the line or at the beginning of the next one.
structure Heading (limits : Limits) (before rest : Text) : Prop where
  near : Text.size (Text.lastLine before) ≤ limits.maxColumn
  cleanBefore : ∀ c ∈ before.getLast?, c ∉ rejectedBefore
  cleanBehind : ∀ c ∈ rest.head?, c ∉ rejectedAfter
  opens : '{' ∈ rest.takeWhile (· != '\n') ∨
    ∃ below, rest = rest.takeWhile (· != '\n') ++ '\n' :: below ∧ opensBrace (below.takeWhile (· != '\n')) = true

section Heading

variable {content before : Text} {occurrence : Occurrence} (stands : occurrence.Stands content before)
include stands

theorem clean_edges_iff :
    hasCleanEdges occurrence = true ↔
      (∀ c ∈ before.getLast?, c ∉ rejectedBefore) ∧ ∀ c ∈ occurrence.rest.head?, c ∉ rejectedAfter := by
  rw [hasCleanEdges, stands.previous]
  cases before.getLast? <;> cases occurrence.rest.head? <;> simp

theorem next_line (below : Text)
    (rest : occurrence.rest = occurrence.rest.takeWhile (· != '\n') ++ '\n' :: below) :
    (Text.pieces '\n' content)[headingLast occurrence + 1]? = some (below.takeWhile (· != '\n')) := by
  generalize shown : occurrence.rest.takeWhile (· != '\n') = line at rest
  have free : '\n' ∉ line := by
    intro member
    have passed := List.mem_takeWhile_imp (shown ▸ member)
    simp at passed
  have cut : content = before ++ occurrence.symbol ++ line ++ '\n' :: below := by
    rw [stands.whole, rest]
    simp only [List.append_assoc]
  have count : (Text.pieces '\n' (before ++ occurrence.symbol ++ line)).length = headingLast occurrence + 1 := by
    rw [Text.pieces_length, headingLast, stands.line, List.count_append, List.count_append, List.count_eq_zero.mpr free,
      Nat.add_zero]
  rw [cut, Text.pieces_append, ← count, List.getElem?_append_right (Nat.le_refl _), Nat.sub_self,
    ← List.head?_eq_getElem?, Text.pieces_head]

theorem no_next_line (rest : '\n' ∉ occurrence.rest) :
    (Text.pieces '\n' content)[headingLast occurrence + 1]? = none := by
  apply List.getElem?_eq_none
  rw [Text.pieces_length, stands.whole, headingLast, stands.line, List.count_append, List.count_append,
    List.count_eq_zero.mpr rest]
  exact Nat.le_refl _

theorem opening_line_iff :
    (openingLine (Text.pieces '\n' content) occurrence).isSome = true ↔
      ('{' ∈ occurrence.rest.takeWhile (· != '\n') ∨
        ∃ below, occurrence.rest = occurrence.rest.takeWhile (· != '\n') ++ '\n' :: below ∧
          opensBrace (below.takeWhile (· != '\n')) = true) := by
  unfold openingLine
  by_cases brace : '{' ∈ occurrence.rest.takeWhile (· != '\n')
  · simp [headingRest, brace]
  · rw [if_neg (by simpa [headingRest] using brace)]
    simp only [brace, false_or]
    rcases Text.first_line_cases occurrence.rest with free | ⟨below, cut⟩
    · rw [no_next_line stands free]
      constructor
      · intro found
        simp at found
      · rintro ⟨below, whole, -⟩
        exact absurd (by rw [whole]; simp) free
    · rw [next_line stands below cut]
      simp only [Option.isSome_ite]
      constructor
      · intro opens
        exact ⟨below, cut, opens⟩
      · rintro ⟨other, whole, opens⟩
        have same := whole.symm.trans cut
        simp only [List.append_cancel_left_eq, List.cons.injEq, true_and] at same
        rwa [← same]

theorem heading_iff (limits : Limits) :
    Heading limits before occurrence.rest ↔
      occurrence.place.column ≤ limits.maxColumn ∧ hasCleanEdges occurrence = true ∧
        (openingLine (Text.pieces '\n' content) occurrence).isSome = true := by
  rw [stands.column, clean_edges_iff stands, opening_line_iff stands]
  exact ⟨fun heading => ⟨heading.near, ⟨heading.cleanBefore, heading.cleanBehind⟩, heading.opens⟩,
    fun ⟨near, ⟨cleanBefore, cleanBehind⟩, opens⟩ => ⟨near, cleanBefore, cleanBehind, opens⟩⟩

end Heading

theorem grow_is_some (lines : List Text) (floor : Nat) (occurrence : Occurrence) :
    (Extent.grow lines floor occurrence).isSome = (openingLine lines occurrence).isSome := by
  simp [Extent.grow]

def covers (line : Nat) (block : Block) : Bool := decide (block.firstLine ≤ line ∧ line ≤ block.lastLine)

theorem filter_covers (blocks : List Block) (line : Nat) (block : Block)
    (ordered : blocks.Pairwise fun a b => a.lastLine < b.firstLine) (member : block ∈ blocks)
    (covered : covers line block = true) : blocks.filter (covers line) = [block] := by
  simp only [covers, decide_eq_true_eq] at covered
  induction blocks with
  | nil => exact absurd member List.not_mem_nil
  | cons first others ih =>
      obtain ⟨apart, rest⟩ := List.pairwise_cons.mp ordered
      rcases List.mem_cons.mp member with rfl | later
      · have none : others.filter (covers line) = [] := by
          apply List.filter_eq_nil_iff.mpr
          intro other present
          have beyond := apart other present
          simp only [covers, decide_eq_true_eq]
          omega
        rw [List.filter_cons_of_pos (by simpa [covers] using covered), none]
      · have beyond := apart block later
        rw [List.filter_cons_of_neg (by simp only [covers, decide_eq_true_eq]; omega)]
        exact ih rest later

section History

variable (limits : Limits) (lines : List Text) (front : List Occurrence) (heading : Occurrence)
  (back : List Occurrence)

theorem earlier_blocks (ordered : (front ++ heading :: back).Pairwise Occurrence.Before)
    (within : Within lines (front ++ heading :: back)) :
    (collect limits lines 0 (front ++ heading :: back)).filter (fun block => block.offset < heading.place.offset) =
      collect limits lines 0 front := by
  obtain ⟨-, backOrdered, across⟩ := List.pairwise_append.mp ordered
  rw [collect_append, List.filter_append]
  have kept : (collect limits lines 0 front).filter (fun block => block.offset < heading.place.offset) =
      collect limits lines 0 front := by
    apply List.filter_eq_self.mpr
    intro block member
    obtain ⟨other, present, _, extent, -, -, rfl⟩ := collect_source limits lines 0 front block within.front member
    exact decide_eq_true (across other present heading List.mem_cons_self).offset
  have dropped : (collect limits lines (floorAfter 0 (collect limits lines 0 front)) (heading :: back)).filter
      (fun block => block.offset < heading.place.offset) = [] := by
    apply List.filter_eq_nil_iff.mpr
    intro block member
    obtain ⟨other, present, _, extent, -, -, rfl⟩ := collect_source limits lines _ _ block within.back member
    have later : heading.place.offset ≤ other.place.offset := by
      rcases List.mem_cons.mp present with rfl | behind
      · exact Nat.le_refl _
      · exact Nat.le_of_lt ((List.pairwise_cons.mp backOrdered).1 other behind).offset
    exact fun earlier => absurd (of_decide_eq_true earlier) (Nat.not_lt.mpr later)
  rw [kept, dropped, List.append_nil]

theorem covered_from_floor (ordered : (front ++ heading :: back).Pairwise Occurrence.Before)
    (within : Within lines front)
    (below : heading.place.line < floorAfter 0 (collect limits lines 0 front)) :
    ∃ block ∈ collect limits lines 0 front, covers (heading.place.line + 1) block = true := by
  cases last : (collect limits lines 0 front).getLast? with
  | none => simp [floorAfter, last] at below
  | some block =>
      have member := List.mem_of_getLast? last
      obtain ⟨other, present, lower, extent, -, made, source⟩ := collect_source limits lines 0 front block within member
      have reached := of_extent_lines limits lines lower other extent (within other present) made
      have earlier := ((List.pairwise_append.mp ordered).2.2 other present heading List.mem_cons_self).line
      simp only [floorAfter, last, Option.map_some, Option.getD_some] at below
      rw [← source] at reached
      refine ⟨block, member, ?_⟩
      simp only [covers, decide_eq_true_eq]
      omega

theorem heading_settled (ordered : (front ++ heading :: back).Pairwise Occurrence.Before)
    (within : Within lines (front ++ heading :: back)) (near : heading.place.column ≤ limits.maxColumn)
    (clean : hasCleanEdges heading = true) (opens : (openingLine lines heading).isSome = true) :
    (∃ block ∈ collect limits lines 0 (front ++ heading :: back), covers (heading.place.line + 1) block = true) ∨
      ∃ extent, Extent.grow lines (floorAfter 0 (collect limits lines 0 front)) heading = some extent ∧
        limits.maxSize < Text.size extent.text := by
  rw [collect_append]
  generalize floorEq : floorAfter 0 (collect limits lines 0 front) = floor
  cases made : extentAt limits lines floor heading with
  | some extent =>
      have reached := of_extent_lines limits lines floor heading extent (within heading (by simp)) made
      refine .inl ⟨ofExtent heading extent, List.mem_append_right _ ?_, ?_⟩
      · simp [collect, made]
      · simpa [covers] using reached.2
  | none =>
      rw [← grow_is_some lines floor heading] at opens
      obtain ⟨extent, growth⟩ := Option.isSome_iff_exists.mp opens
      by_cases below : heading.place.line < floor
      · obtain ⟨block, member, covered⟩ :=
          covered_from_floor limits lines front heading back ordered within.front (floorEq ▸ below)
        exact .inl ⟨block, List.mem_append_left _ member, covered⟩
      · refine .inr ⟨extent, growth, ?_⟩
        apply Nat.lt_of_not_le
        intro small
        have taken := (extent_at_eq_some limits lines floor heading extent).mpr
          ⟨Nat.le_of_not_lt below, near, clean, growth, small⟩
        simp [made] at taken

end History

theorem find_headings (limits : Limits) (symbols : List Text) (content : Text) (several : '\n' ∈ content) :
    (∀ block ∈ find limits (Pattern.ofSymbols symbols) content,
      ∃ found ∈ (Pattern.ofSymbols symbols).occurrences content, ∃ before,
        found.Stands content before ∧ Heading limits before found.rest ∧
          block.offset = found.place.offset ∧ block.symbol = found.symbol) ∧
    ∀ found ∈ (Pattern.ofSymbols symbols).occurrences content, ∃ before, found.Stands content before ∧
      (Heading limits before found.rest →
        (∃ block, (find limits (Pattern.ofSymbols symbols) content).filter
          (covers (before.count '\n' + 1)) = [block]) ∨
        ∃ extent, Extent.grow (Text.pieces '\n' content)
            (floorAfter 0 ((find limits (Pattern.ofSymbols symbols) content).filter
              fun block => block.offset < found.place.offset)) found = some extent ∧
          limits.maxSize < Text.size extent.text) := by
  have within := occurrences_within (Pattern.ofSymbols symbols) content
  have ordered := (Pattern.ofSymbols symbols).occurrences_ordered content
  have standing := (Pattern.ofSymbols symbols).occurrences_stand content
  rw [find, if_pos (by simpa using several)]
  generalize (Pattern.ofSymbols symbols).occurrences content = occurrences at within ordered standing ⊢
  constructor
  · intro block member
    obtain ⟨found, present, floor, extent, -, made, rfl⟩ := collect_source limits _ 0 _ block within member
    obtain ⟨before, stands⟩ := standing found present
    obtain ⟨-, near, clean, growth, -⟩ := (extent_at_eq_some limits _ floor found extent).mp made
    have opens : (openingLine (Text.pieces '\n' content) found).isSome = true := by
      rw [← grow_is_some _ floor, growth, Option.isSome_some]
    exact ⟨found, present, before, stands, (heading_iff stands limits).mpr ⟨near, clean, opens⟩, rfl, rfl⟩
  · intro found present
    obtain ⟨before, stands⟩ := standing found present
    refine ⟨before, stands, ?_⟩
    intro heading
    obtain ⟨near, clean, opens⟩ := (heading_iff stands limits).mp heading
    obtain ⟨front, back, rfl⟩ := List.append_of_mem present
    rw [earlier_blocks limits _ front found back ordered within, ← stands.line]
    rcases heading_settled limits _ front found back ordered within near clean opens with covered | tooLong
    · obtain ⟨block, member, covered⟩ := covered
      exact .inl ⟨block, filter_covers _ _ block (collect_ordered limits _ 0 _ within) member covered⟩
    · exact .inr tooLong

-- The second heading stands on the second line of the block that the first one gave.
theorem find_headings_of_inner_method :
    let content : Text := "class A \x7b\n  A() \x7b\n  \x7d\n\x7d\n".toList
    let inner : Occurrence := ⟨⟨12, 1, 2, some ' '⟩, ['A'], "() \x7b\n  \x7d\n\x7d\n".toList⟩
    '\n' ∈ content ∧ ∃ before, inner.Stands content before ∧ Heading ⟨100, 50⟩ before inner.rest ∧
      ∃ block, (find ⟨100, 50⟩ (Pattern.ofSymbols [['A']]) content).filter (covers (before.count '\n' + 1)) =
        [block] := by
  intro content inner
  have several : '\n' ∈ content := by decide +kernel
  have member : inner ∈ (Pattern.ofSymbols [['A']]).occurrences content := by decide +kernel
  obtain ⟨before, stands, settled⟩ := (find_headings ⟨100, 50⟩ [['A']] content several).2 inner member
  have heading : Heading ⟨100, 50⟩ before inner.rest := by
    rw [heading_iff stands]
    decide +kernel
  refine ⟨several, before, stands, heading, (settled heading).resolve_right ?_⟩
  -- No text of this content is longer than the bound.
  have extents : (Extent.grow (Text.pieces '\n' content)
      (floorAfter 0 ((find ⟨100, 50⟩ (Pattern.ofSymbols [['A']]) content).filter
        fun block => block.offset < inner.place.offset)) inner).all
      (fun extent => decide (Text.size extent.text ≤ 100)) = true := by
    decide +kernel
  intro ⟨extent, growth, tooLong⟩
  rw [growth] at extents
  exact absurd (of_decide_eq_true extents) (Nat.not_le.mpr tooLong)

end Block

end BlockSearch
