import BlockSearch.Block.Score
import BlockSearch.Proofs.Block.FramedOccurrences
import BlockSearch.Proofs.Text.ShownLines

set_option autoImplicit false

namespace BlockSearch

namespace Block

open BlockSearch.Symbol (Pattern Occurrence)

-- Limits that stand in the way of no block of this content: the search finds nothing else with higher ones.
def Limits.Ample (limits : Limits) (pattern : Pattern) (content : Text) : Prop :=
  ∀ higher : Limits, limits.maxSize ≤ higher.maxSize → limits.maxColumn ≤ higher.maxColumn →
    find higher pattern content = find limits pattern content

theorem not_from_earlier (limits : Limits) (lines : List Text) (floor : Nat) (earlier : Occurrence) (extent : Extent)
    (occurrences : List Occurrence) (ordered : (earlier :: occurrences).Pairwise Occurrence.Before)
    (within : Within lines occurrences) : ofExtent earlier extent ∉ collect limits lines floor occurrences := by
  intro member
  obtain ⟨other, present, lower, grown, -, -, same⟩ := collect_source limits lines floor occurrences _ within member
  have before := (List.pairwise_cons.mp ordered).1 other present
  have offset : earlier.place.offset = other.place.offset := congrArg Block.offset same
  exact absurd before.offset (offset ▸ Nat.lt_irrefl _)

theorem first_agrees (limits higher : Limits) (lines : List Text) (floor : Nat) (first : Occurrence)
    (occurrences : List Occurrence) (ordered : (first :: occurrences).Pairwise Occurrence.Before)
    (within : Within lines occurrences)
    (allows : ∀ extent, extentAt limits lines floor first = some extent → extentAt higher lines floor first = some extent)
    (same : collect higher lines floor (first :: occurrences) = collect limits lines floor (first :: occurrences)) :
    extentAt higher lines floor first = extentAt limits lines floor first := by
  cases lower : extentAt limits lines floor first with
  | some extent => exact allows extent lower
  | none =>
      cases found : extentAt higher lines floor first with
      | none => rfl
      | some extent =>
          simp only [collect, lower, found] at same
          exact absurd (same ▸ List.mem_cons_self) (not_from_earlier limits lines floor first extent _ ordered within)

theorem last_line_size_le (text : Text) : Text.size (Text.lastLine text) ≤ Text.size text := by
  induction text using List.reverseRecOn with
  | nil => exact Nat.le_refl _
  | append_singleton text c ih =>
      rw [Text.last_line_append]
      split
      · exact Nat.zero_le _
      · rw [Text.size_append, Text.size_append]
        exact Nat.add_le_add_right ih _

theorem collect_congr (limits higher : Limits) (lines : List Text) (floor : Nat) (occurrences : List Occurrence)
    (same : ∀ occurrence ∈ occurrences, ∀ floor,
      extentAt higher lines floor occurrence = extentAt limits lines floor occurrence) :
    collect higher lines floor occurrences = collect limits lines floor occurrences := by
  induction occurrences generalizing floor with
  | nil => rfl
  | cons occurrence rest ih =>
      have behind (floor : Nat) := ih floor fun other later => same other (List.mem_cons_of_mem _ later)
      simp only [collect, same occurrence List.mem_cons_self, behind]

theorem ample_of_size (limits : Limits) (pattern : Pattern) (content : Text)
    (sizes : Text.size content ≤ limits.maxSize) (columns : Text.size content ≤ limits.maxColumn) :
    limits.Ample pattern content := by
  intro higher larger wider
  rw [find, find, collect_congr limits higher]
  intro occurrence member floor
  obtain ⟨before, stands⟩ := pattern.occurrences_stand content occurrence member
  have near : occurrence.place.column ≤ Text.size content := by
    have upto := last_line_size_le before
    rw [stands.column, stands.whole, Text.size_append]
    omega
  apply Option.ext
  intro extent
  rw [extent_at_eq_some, extent_at_eq_some]
  constructor
  · intro ⟨above, _, clean, growth, _⟩
    exact ⟨above, Nat.le_trans near columns, clean, growth, Nat.le_trans (grow_size_le stands growth) sizes⟩
  · intro ⟨above, _, clean, growth, _⟩
    have small := Nat.le_trans (grow_size_le stands growth) sizes
    exact ⟨above, by omega, clean, growth, Nat.le_trans small larger⟩

end Block

namespace Frame

open BlockSearch.Symbol (Pattern Occurrence)
open BlockSearch.Block (Extent Limits Within extentAt ofExtent collect find headingLast)

variable (frame : Frame)

structure Restates (block other : Block) : Prop where
  firstLine : other.firstLine = block.firstLine
  lastLine : other.lastLine = block.lastLine
  symbol : other.symbol = block.symbol
  text : other.text = frame.apply block.text

variable {frame}

theorem restates_of_extent {found other : Occurrence} (alike : frame.Matches found other) {extent otherExtent : Extent}
    (carries : frame.Carries extent otherExtent) : frame.Restates (ofExtent found extent) (ofExtent other otherExtent) := by
  obtain ⟨more, returns, text⟩ := carries.text
  have trimmed := Frame.trimmed frame extent.text more returns
  refine ⟨?_, ?_, alike.symbol, ?_⟩
  · simp only [ofExtent, carries.first]
  · simp only [ofExtent, carries.last]
  · simp only [ofExtent, text, trimmed]

section Limits

variable {limits higher : Limits} {lines : List Text} {floor : Nat} {found other : Occurrence}
  (alike : frame.Matches found other) (free : ∀ line ∈ lines, '\n' ∉ line) (within : headingLast found < lines.length)
include alike free within

theorem extent_at_framed {extent : Extent} (columns : limits.maxColumn + Text.size frame.lead ≤ higher.maxColumn)
    (sizes : ∀ grown, Extent.grow (frame.lines lines) floor other = some grown → Text.size grown.text ≤ higher.maxSize)
    (made : extentAt limits lines floor found = some extent) :
    ∃ otherExtent, extentAt higher (frame.lines lines) floor other = some otherExtent ∧
      frame.Carries extent otherExtent := by
  obtain ⟨above, near, clean, growth, -⟩ := (Block.extent_at_eq_some _ _ _ _ _).mp made
  have grown := grow_framed alike free floor within
  rw [growth] at grown
  generalize reached : Extent.grow (frame.lines lines) floor other = grows at grown
  cases grown with
  | some carries =>
      refine ⟨_, (Block.extent_at_eq_some _ _ _ _ _).mpr ⟨?_, ?_, ?_, reached, sizes _ reached⟩, carries⟩
      · rw [alike.line]
        exact above
      · rw [alike.column]
        omega
      · rw [alike.clean, clean]

theorem extent_at_unframed {otherExtent : Extent}
    (made : extentAt limits (frame.lines lines) floor other = some otherExtent) :
    ∃ extent, extentAt limits lines floor found = some extent ∧ frame.Carries extent otherExtent := by
  obtain ⟨above, near, clean, growth, small⟩ := (Block.extent_at_eq_some _ _ _ _ _).mp made
  have grown := grow_framed alike free floor within
  rw [growth] at grown
  generalize reached : Extent.grow lines floor found = grows at grown
  cases grown with
  | @some extent _ carries =>
      refine ⟨extent, (Block.extent_at_eq_some _ _ _ _ _).mpr ⟨?_, ?_, ?_, reached, ?_⟩, carries⟩
      · rw [← alike.line]
        exact above
      · have column := alike.column
        omega
      · rw [← alike.clean, clean]
      · obtain ⟨more, -, text⟩ := carries.text
        have longer := size_apply_le frame extent.text
        rw [text, Text.size_append] at small
        omega

end Limits

theorem collect_framed {limits higher : Limits} {lines : List Text} {founds others : List Occurrence}
    (alike : List.Forall₂ frame.Matches founds others) (free : ∀ line ∈ lines, '\n' ∉ line) (within : Within lines founds)
    (ordered : others.Pairwise Occurrence.Before) (otherWithin : Within (frame.lines lines) others)
    (columns : limits.maxColumn + Text.size frame.lead ≤ higher.maxColumn)
    (sizes : ∀ other ∈ others, ∀ floor grown, Extent.grow (frame.lines lines) floor other = some grown →
      Text.size grown.text ≤ higher.maxSize) (floor : Nat)
    (same : collect higher (frame.lines lines) floor others = collect limits (frame.lines lines) floor others) :
    List.Forall₂ frame.Restates (collect limits lines floor founds) (collect limits (frame.lines lines) floor others) := by
  induction alike generalizing floor with
  | nil => exact .nil
  | @cons found other founds others here rest ih =>
      have inside := within found List.mem_cons_self
      have small := sizes other List.mem_cons_self floor
      have later := ih within.tail (List.pairwise_cons.mp ordered).2 otherWithin.tail fun next member =>
        sizes next (List.mem_cons_of_mem _ member)
      have allows : ∀ extent, extentAt limits (frame.lines lines) floor other = some extent →
          extentAt higher (frame.lines lines) floor other = some extent := by
        intro extent made
        obtain ⟨above, near, clean, growth, -⟩ := (Block.extent_at_eq_some _ _ _ _ _).mp made
        exact (Block.extent_at_eq_some _ _ _ _ _).mpr ⟨above, by omega, clean, growth, small extent growth⟩
      -- What the limits allow in the content, the higher ones allow in the framed one, and there the two agree.
      have agrees := Block.first_agrees limits higher _ floor other others ordered otherWithin.tail allows same
      cases made : extentAt limits lines floor found with
      | some extent =>
          obtain ⟨otherExtent, reached, carries⟩ := extent_at_framed here free inside columns small made
          have lower := agrees.symm.trans reached
          simp only [collect, reached, lower] at same
          simp only [collect, made, lower]
          rw [carries.last] at same ⊢
          exact .cons (restates_of_extent here carries) (later _ (List.cons.inj same).2)
      | none =>
          cases lower : extentAt limits (frame.lines lines) floor other with
          | some otherExtent =>
              obtain ⟨extent, reached, -⟩ := extent_at_unframed here free inside lower
              rw [made] at reached
              cases reached
          | none =>
              simp only [collect, agrees, lower] at same
              simp only [collect, made, lower]
              exact later floor same

theorem find_framed (frame : Frame) {symbols : List Text} (nonempty : symbols ≠ []) (fits : frame.Fits symbols)
    (content : Text) {limits higher : Limits} (columns : limits.maxColumn + Text.size frame.lead ≤ higher.maxColumn)
    (sizes : Text.size (frame.apply content) ≤ higher.maxSize)
    (same : find higher (Pattern.ofSymbols symbols) (frame.apply content) =
      find limits (Pattern.ofSymbols symbols) (frame.apply content)) :
    List.Forall₂ frame.Restates (find limits (Pattern.ofSymbols symbols) content)
      (find limits (Pattern.ofSymbols symbols) (frame.apply content)) := by
  have lines : (frame.apply content).contains '\n' = content.contains '\n' := by
    rw [Bool.eq_iff_iff, List.contains_iff_mem, List.contains_iff_mem, ← List.count_pos_iff, ← List.count_pos_iff,
      count_apply]
  unfold find at same ⊢
  rw [lines] at same ⊢
  split
  · rename_i several
    rw [if_pos several, if_pos several, pieces_apply] at same
    rw [pieces_apply]
    have otherWithin := Block.occurrences_within (Pattern.ofSymbols symbols) (frame.apply content)
    rw [pieces_apply] at otherWithin
    refine collect_framed (occurrences_framed frame nonempty fits content) (Text.piece_free '\n' content)
      (Block.occurrences_within _ content) (Pattern.occurrences_ordered _ _) otherWithin columns ?_ 0 same
    intro other member floor grown growth
    obtain ⟨before, stands⟩ := Pattern.occurrences_stand _ _ other member
    rw [← pieces_apply] at growth
    exact Nat.le_trans (Block.grow_size_le stands growth) sizes
  · exact .nil

end Frame

namespace Block

open BlockSearch.Symbol (Pattern)

theorem score_returns (text path : Text) (plain : '\r' ∉ text) : score (Text.withReturns text) path = score text path := by
  rw [score, score, headingLine, headingLine, Text.shown_lines_returns text plain, Text.pieces_length, Text.pieces_length,
    ← Text.returns_apply, Frame.count_apply]

theorem find_with_returns (limits : Limits) (symbols : List Text) (nonempty : symbols ≠ [])
    (single : ∀ symbol ∈ symbols, '\r' ∉ symbol ∧ '\n' ∉ symbol) (content : Text) (plain : '\r' ∉ content)
    (large : Text.size (Text.withReturns content) ≤ limits.maxSize) :
    List.Forall₂
      (fun block other : Block =>
        other.firstLine = block.firstLine ∧ other.lastLine = block.lastLine ∧ other.symbol = block.symbol ∧
          other.text = Text.withReturns block.text ∧ ∀ path, score other.text path = score block.text path)
      (find limits (Pattern.ofSymbols symbols) content)
      (find limits (Pattern.ofSymbols symbols) (Text.withReturns content)) := by
  have fits : Frame.ofReturns.Fits symbols :=
    ⟨fun symbol member => (single symbol member).2, fun _ symbol member => (single symbol member).1,
      by simp [Frame.ofReturns]⟩
  have framed := Frame.find_framed Frame.ofReturns nonempty fits content (Nat.le_refl limits.maxColumn) large rfl
  have plainText : ∀ block ∈ find limits (Pattern.ofSymbols symbols) content, '\r' ∉ block.text := by
    intro block member within
    obtain ⟨occurrence, -, before, floor, extent, stands, made, rfl⟩ := find_origin limits _ content block member
    obtain ⟨above, lead, trail, behind, divided, -⟩ :=
      of_extent_stands limits content before floor occurrence extent stands made
    exact plain (by rw [divided.whole]; exact List.mem_append_right _ (List.mem_append_left _ within))
  refine ((List.forall₂_and_left _ _).mpr ⟨plainText, framed⟩).imp ?_
  intro block other ⟨free, restates⟩
  have text := restates.text.trans (Text.returns_apply block.text)
  exact ⟨restates.firstLine, restates.lastLine, restates.symbol, text,
    fun path => text ▸ score_returns block.text path free⟩

theorem find_with_returns_below_comment :
    let symbols : List Text := ["A".toList, "é".toList]
    let content : Text := "// n\nclass A\n\x7b\n  b\n\n\x7d\n é \x7b".toList
    '\r' ∉ content ∧ Text.size (Text.withReturns content) ≤ 100 ∧
      (find ⟨100, 50⟩ (Pattern.ofSymbols symbols) content).length = 2 ∧
      List.Forall₂
        (fun block other : Block =>
          other.firstLine = block.firstLine ∧ other.lastLine = block.lastLine ∧ other.symbol = block.symbol ∧
            other.text = Text.withReturns block.text ∧ ∀ path, score other.text path = score block.text path)
        (find ⟨100, 50⟩ (Pattern.ofSymbols symbols) content)
        (find ⟨100, 50⟩ (Pattern.ofSymbols symbols) (Text.withReturns content)) := by
  intro symbols content
  have plain : '\r' ∉ content := by decide
  have large : Text.size (Text.withReturns content) ≤ 100 := by decide
  have single : ∀ symbol ∈ symbols, '\r' ∉ symbol ∧ '\n' ∉ symbol := by decide
  exact ⟨plain, large, by decide +kernel,
    find_with_returns ⟨100, 50⟩ symbols (List.cons_ne_nil _ _) single content plain large⟩

-- Without symbols nothing is read everywhere, also between the two characters of a line end.
theorem returns_seen_by_no_symbols :
    let content : Text := "'\n\x7b\n\x7d\n".toList
    '\r' ∉ content ∧ Text.size (Text.withReturns content) ≤ 100 ∧
      (find ⟨100, 50⟩ (Pattern.ofSymbols []) content).map Block.firstLine = [2] ∧
      (find ⟨100, 50⟩ (Pattern.ofSymbols []) (Text.withReturns content)).map Block.firstLine = [1] := by
  decide +kernel

theorem find_indented (limits : Limits) (symbols : List Text) (nonempty : symbols ≠ [])
    (trimmed : ∀ symbol ∈ symbols, '\n' ∉ symbol ∧ Text.trim symbol = symbol) (lead : Text)
    (indents : ∀ c ∈ lead, CharClass.isIndent c = true) (content : Text)
    (ample : limits.Ample (Pattern.ofSymbols symbols) (Text.indented lead content)) :
    List.Forall₂
      (fun block other : Block =>
        other.firstLine = block.firstLine ∧ other.lastLine = block.lastLine ∧ other.symbol = block.symbol ∧
          other.text = Text.indented lead block.text)
      (find limits (Pattern.ofSymbols symbols) content)
      (find limits (Pattern.ofSymbols symbols) (Text.indented lead content)) := by
  have fits : (Frame.ofIndentation lead indents).Fits symbols :=
    ⟨fun symbol member => (trimmed symbol member).1, by simp [Frame.ofIndentation],
      fun _ symbol member => (trimmed symbol member).2⟩
  let higher : Limits := ⟨max limits.maxSize (Text.size (Text.indented lead content)), limits.maxColumn + Text.size lead⟩
  have same := ample higher (Nat.le_max_left _ _) (Nat.le_add_right _ _)
  rw [← Text.indentation_apply lead indents] at same ⊢
  have sizes : Text.size ((Frame.ofIndentation lead indents).apply content) ≤ higher.maxSize := by
    rw [Text.indentation_apply lead indents]
    exact Nat.le_max_right _ _
  have framed := Frame.find_framed (Frame.ofIndentation lead indents) nonempty fits content (Nat.le_refl higher.maxColumn)
    sizes same
  exact framed.imp fun block other restates =>
    ⟨restates.firstLine, restates.lastLine, restates.symbol, by rw [restates.text, Text.indentation_apply]⟩

theorem find_indented_by_tab :
    let symbols : List Text := ["A*".toList, "#id".toList]
    let content : Text := "# n\n class AB \x7b\n \tA() \x7b\n \t\x7d\n\n \x7d\r\n#id \x7b\r\n\r".toList
    let lead : Text := "\t ".toList
    Limits.Ample ⟨100, 100⟩ (Pattern.ofSymbols symbols) (Text.indented lead content) ∧
      (find ⟨100, 100⟩ (Pattern.ofSymbols symbols) content).length = 2 ∧
      List.Forall₂
        (fun block other : Block =>
          other.firstLine = block.firstLine ∧ other.lastLine = block.lastLine ∧ other.symbol = block.symbol ∧
            other.text = Text.indented lead block.text)
        (find ⟨100, 100⟩ (Pattern.ofSymbols symbols) content)
        (find ⟨100, 100⟩ (Pattern.ofSymbols symbols) (Text.indented lead content)) := by
  intro symbols content lead
  have trimmed : ∀ symbol ∈ symbols, '\n' ∉ symbol ∧ Text.trim symbol = symbol := by decide +kernel
  have indents : ∀ c ∈ lead, CharClass.isIndent c = true := List.all_eq_true.mp (by decide)
  have ample : Limits.Ample ⟨100, 100⟩ (Pattern.ofSymbols symbols) (Text.indented lead content) :=
    ample_of_size _ _ _ (by decide) (by decide)
  exact ⟨ample, by decide +kernel,
    find_indented ⟨100, 100⟩ symbols (List.cons_ne_nil _ _) trimmed lead indents content ample⟩

-- Without symbols an occurrence begins also between the indentation and a quote.
theorem indentation_seen_by_no_symbols :
    let content : Text := "'\x7b\n\x7d".toList
    Limits.Ample ⟨100, 100⟩ (Pattern.ofSymbols []) (Text.indented [' '] content) ∧
      (find ⟨100, 100⟩ (Pattern.ofSymbols []) content).map Block.firstLine = [] ∧
      (find ⟨100, 100⟩ (Pattern.ofSymbols []) (Text.indented [' '] content)).map Block.firstLine = [1] := by
  intro content
  exact ⟨ample_of_size _ _ _ (by decide) (by decide), by decide +kernel, by decide +kernel⟩

end Block

end BlockSearch
