import BlockSearch.Proofs.Block.Headings
import BlockSearch.Proofs.Symbol.Words

set_option autoImplicit false

namespace BlockSearch.Block

open BlockSearch.Symbol (Pattern Occurrence isOfWords inside_line inside_word newline_no_word)

theorem heading_covered (limits : Limits) (pattern : Pattern) (content before : Text) (found : Occurrence)
    (several : '\n' ∈ content) (wide : Text.size content ≤ limits.maxSize)
    (member : found ∈ pattern.occurrences content) (stands : found.Stands content before)
    (heading : Heading limits before found.rest) :
    ∃ block ∈ find limits pattern content, covers (before.count '\n' + 1) block = true := by
  have within := occurrences_within pattern content
  have ordered := pattern.occurrences_ordered content
  rw [find, if_pos (by simpa using several), ← stands.line]
  obtain ⟨near, clean, opens⟩ := (heading_iff stands limits).mp heading
  obtain ⟨front, back, cut⟩ := List.append_of_mem member
  rw [cut] at within ordered ⊢
  rcases heading_settled limits _ front found back ordered within near clean opens with covered | ⟨extent, growth, long⟩
  · exact covered
  · have small := grow_size_le stands growth
    omega

theorem find_source (limits : Limits) (pattern : Pattern) (content : Text) (block : Block)
    (member : block ∈ find limits pattern content) :
    '\n' ∈ content ∧ ∃ found ∈ pattern.occurrences content, ∃ before, found.Stands content before ∧
      pattern.read before.getLast? (found.symbol ++ found.rest) = some (found.symbol, found.rest) ∧
      Heading limits before found.rest ∧ block.offset = Text.size before := by
  unfold find at member
  split at member
  · rename_i several
    obtain ⟨found, present, floor, extent, -, made, rfl⟩ :=
      collect_source limits _ 0 _ block (occurrences_within pattern content) member
    obtain ⟨before, stands, reads⟩ := pattern.occurrences_read content found present
    obtain ⟨-, near, clean, growth, -⟩ := (extent_at_eq_some limits _ floor found extent).mp made
    have opens : (openingLine (Text.pieces '\n' content) found).isSome = true := by
      rw [← grow_is_some _ floor, growth, Option.isSome_some]
    exact ⟨by simpa using several, found, present, before, stands, reads,
      (heading_iff stands limits).mpr ⟨near, clean, opens⟩, stands.offset⟩
  · exact absurd member List.not_mem_nil

-- An occurrence at or across the end of `before` that leaves the line there to no block: it heads none, or it begins on
-- an earlier line.
structure TakesPlace (limits : Limits) (content before : Text) (found : Occurrence) (front inside : Text) : Prop where
  cut : before = front ++ inside
  stands : found.Stands content front
  reaches : inside = [] ∨ inside.length < found.symbol.length
  fails : '\n' ∈ found.symbol ∨ ¬ Heading limits front found.rest

theorem find_among_symbols (limits : Limits) (symbols : List Text) (symbol content : Text) (member : symbol ∈ symbols)
    (wide : Text.size content ≤ limits.maxSize) :
    ∀ block ∈ find limits (Pattern.ofSymbols [symbol]) content, ∃ before rest,
      content = before ++ rest ∧ block.offset = Text.size before ∧
        ((∃ outer ∈ find limits (Pattern.ofSymbols symbols) content, covers (before.count '\n' + 1) outer = true) ∨
          ¬ (∀ other ∈ symbols, isOfWords other = true) ∧ ∃ found ∈ (Pattern.ofSymbols symbols).occurrences content,
            ∃ front inside, TakesPlace limits content before found front inside) := by
  intro block present
  obtain ⟨several, single, -, before, stands, reads, heading, offset⟩ := find_source _ _ _ block present
  refine ⟨before, single.symbol ++ single.rest, stands.whole, offset, ?_⟩
  -- The list reads something at this place, or it is reading something there already.
  obtain ⟨found, occurs, front, inside, cut, standing, reading, reaches⟩ :=
    (Pattern.ofSymbols symbols).occurrences_cover before (single.symbol ++ single.rest)
      (Pattern.read_is_some symbols symbol member _ _ (by rw [reads, Option.isSome_some]))
  rw [← stands.whole] at occurs standing
  by_cases fails : '\n' ∈ found.symbol ∨ ¬ Heading limits front found.rest
  · by_cases words : ∀ other ∈ symbols, isOfWords other = true
    · have some := List.ne_nil_of_mem member
      have outer := Pattern.of_words_whole symbols some words _ _ _ _ reading
      have inner := Pattern.of_words_whole [symbol] (List.cons_ne_nil _ _)
        (fun other here => words other (List.mem_singleton.mp here ▸ member)) _ _ _ _ reads
      obtain ⟨place, behind⟩ := inside_word stands.whole cut standing reaches rfl outer inner
      rw [place, behind] at fails
      exact absurd heading (fails.resolve_left (newline_no_word outer))
    · exact .inr ⟨words, found, occurs, front, inside, cut, standing, reaches, fails⟩
  · obtain ⟨free, heads⟩ := not_or.mp fails
    obtain ⟨outer, taken, covered⟩ := heading_covered limits _ content front found several wide occurs standing
      (Classical.not_not.mp heads)
    have same := inside_line stands.whole cut standing reaches free
    exact .inl ⟨outer, taken, by rw [same]; exact covered⟩

-- The list takes the class first, and its block holds the heading of the method.
theorem find_among_words :
    let content : Text := "class A \x7b\n  f() \x7b\n  \x7d\n\x7d\n".toList
    Text.size content ≤ 100 ∧ ∃ before rest, content = before ++ rest ∧ 12 = Text.size before ∧
      ∃ outer ∈ find ⟨100, 50⟩ (Pattern.ofSymbols [['A'], ['f']]) content,
        covers (before.count '\n' + 1) outer = true := by
  intro content
  have wide : Text.size content ≤ 100 := by decide +kernel
  have words : ∀ other ∈ [['A'], ['f']], isOfWords other = true := by decide +kernel
  have present : (⟨2, 3, 12, ['f'], "  f() \x7b\n  \x7d".toList⟩ : Block) ∈
      find ⟨100, 50⟩ (Pattern.ofSymbols [['f']]) content := by decide +kernel
  obtain ⟨before, rest, whole, offset, covered | ⟨others, -⟩⟩ :=
    find_among_symbols ⟨100, 50⟩ [['A'], ['f']] ['f'] content (by decide) wide _ present
  · exact ⟨wide, before, rest, whole, offset, covered⟩
  · exact absurd words others

-- The shorter selector is read first and is no heading before the dot, so nothing heads the block.
theorem shorter_selector_hides :
    let content : Text := ".nav.active \x7b\n  color: red;\n\x7d\n".toList
    let symbols : List Text := [".nav".toList, ".nav.active".toList]
    ".nav.active".toList ∈ symbols ∧ Text.size content ≤ 100 ∧
      (find ⟨100, 50⟩ (Pattern.ofSymbols [".nav.active".toList]) content).map
        (fun block => (block.firstLine, block.lastLine, block.offset)) = [(1, 3, 0)] ∧
      find ⟨100, 50⟩ (Pattern.ofSymbols symbols) content = [] := by
  decide +kernel

end BlockSearch.Block
