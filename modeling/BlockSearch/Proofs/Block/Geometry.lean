import BlockSearch.Proofs.Block.Floor
import BlockSearch.Proofs.Text.Trimming

set_option autoImplicit false

namespace BlockSearch

namespace Block

open BlockSearch.Symbol (Pattern Occurrence)

-- A content divided around a block and its symbol: the lines above the block, its text up to the symbol and behind it,
-- and what follows the block.
structure Stands (limits : Limits) (content : Text) (block : Block) (above lead trail behind : Text) : Prop where
  whole : content = above ++ (block.text ++ behind)
  text : block.text = lead ++ (block.symbol ++ trail)
  lineStart : Text.BeforePiece '\n' above
  firstLine : block.firstLine = above.count '\n' + 1
  lastLine : block.lastLine = block.firstLine + block.text.count '\n'
  lineCount : (Text.pieces '\n' block.text).length = block.lastLine - block.firstLine + 1
  lineEnd : (∀ c ∈ behind.takeWhile (· != '\n'), c = '\r') ∨ block.text.getLast? = some '}'
  offset : block.offset = Text.size (above ++ lead)
  column : Text.size (Text.lastLine (above ++ lead)) ≤ limits.maxColumn
  size : Text.size block.text ≤ limits.maxSize

theorem take_line_append (cut behind : Text) (returns : ∀ c ∈ cut, (c == '\r') = true)
    (after : Text.AfterPiece '\n' behind) : ∀ c ∈ (cut ++ behind).takeWhile (· != '\n'), c = '\r' := by
  have stops : behind.takeWhile (· != '\n') = [] := by
    cases behind with
    | nil => rfl
    | cons c others => simp [after c (by simp)]
  have passes : ∀ c ∈ cut, (c != '\n') = true := by
    intro c member
    simp [beq_iff_eq.mp (returns c member)]
  rw [List.takeWhile_append_of_pos passes, stops, List.append_nil]
  intro c member
  exact beq_iff_eq.mp (returns c member)

theorem of_extent_stands (limits : Limits) (content before : Text) (floor : Nat) (occurrence : Occurrence)
    (extent : Extent) (stands : occurrence.Stands content before)
    (made : extentAt limits (Text.pieces '\n' content) floor occurrence = some extent) :
    ∃ above lead trail behind, Stands limits content (ofExtent occurrence extent) above lead trail behind ∧
      before = above ++ lead ∧ trail ≠ [] := by
  obtain ⟨-, near, -, growth, small⟩ := (extent_at_eq_some _ _ _ _ _).mp made
  have grown := Extent.grow_grown _ floor occurrence extent (heading_within stands) growth
  obtain ⟨above, lead, trail, behind, whole, split, text, begins, aboveCount, textCount, ending, kept⟩ :=
    grown.divides stands
  -- Carriage returns are cut off behind the symbol only, and none of them is a newline.
  have keptTrail : ∃ c ∈ trail, (c == '\r') = false := by
    rcases kept with newline | brace
    · exact ⟨_, newline, rfl⟩
    · exact ⟨_, brace, rfl⟩
  obtain ⟨cut, trimmed, returns, counted, smaller⟩ := Text.without_returns extent.text
  have someTrail : Text.dropEndWhile (· == '\r') trail ≠ [] := by
    intro none
    obtain ⟨c, member, kept⟩ := keptTrail
    obtain ⟨more, rest, dropped⟩ := Text.drop_end_while_split (· == '\r') trail
    rw [none, List.nil_append] at rest
    exact absurd (dropped c (rest ▸ member)) (by simp [kept])
  refine ⟨above, lead, Text.dropEndWhile (· == '\r') trail, cut ++ behind, ?_, split, someTrail⟩
  constructor
  · simp only [ofExtent]
    rw [whole, ← List.append_assoc _ cut, ← trimmed]
  · simp only [ofExtent]
    rw [text, ← List.append_assoc, Text.drop_end_while_append _ _ _ keptTrail, List.append_assoc]
  · exact begins
  · simp only [ofExtent]
    omega
  · simp only [ofExtent]
    omega
  · simp only [ofExtent, Text.pieces_length]
    omega
  · rcases ending with after | brace
    · exact .inl (take_line_append cut behind returns after)
    · right
      obtain ⟨front, last⟩ := List.getLast?_eq_some_iff.mp brace
      simp only [ofExtent]
      rw [last, Text.drop_end_while_append _ _ _ ⟨'}', by simp, rfl⟩]
      simp [Text.dropEndWhile]
  · simp only [ofExtent]
    rw [stands.offset, split]
  · rw [← split, ← stands.column]
    exact near
  · exact Nat.le_trans smaller small

theorem find_geometry (limits : Limits) (symbols : List Text) (content : Text) :
    (find limits (Pattern.ofSymbols symbols) content).Pairwise (fun a b => a.lastLine < b.firstLine) ∧
      ∀ block ∈ find limits (Pattern.ofSymbols symbols) content,
        ∃ above lead trail behind, Stands limits content block above lead trail behind := by
  constructor
  · unfold find
    split
    · exact collect_ordered limits _ 0 _ (occurrences_within (Pattern.ofSymbols symbols) content)
    · exact List.Pairwise.nil
  · intro block member
    obtain ⟨occurrence, -, before, floor, extent, stands, made, rfl⟩ := find_origin limits _ content block member
    obtain ⟨above, lead, trail, behind, divided, -⟩ :=
      of_extent_stands limits content before floor occurrence extent stands made
    exact ⟨above, lead, trail, behind, divided⟩

-- A comment belongs to the heading below it, and a heading inside of a block has none of its own.
example :
    (find ⟨100, 50⟩ (Pattern.ofSymbols [['A'], ['é']])
      "// n\r\nclass A \x7b\n  A() \x7b\n  \x7d\n\x7d\n é \x7b\r\r\nA \x7b".toList).map
        (fun block => (block.firstLine, block.lastLine, block.offset)) = [(1, 5, 12), (6, 6, 31), (7, 7, 38)] := by
  decide +kernel

end Block

end BlockSearch
