import BlockSearch.Block.Score
import BlockSearch.Proofs.Block.Geometry
import BlockSearch.Proofs.Symbol.Locality
import BlockSearch.Proofs.Text.ShownLines

set_option autoImplicit false

namespace BlockSearch.Block

open BlockSearch.Symbol (Pattern Occurrence)

def headingNumber (text : Text) : Nat := (Text.shownLines text).findIdx fun line => !isCommentLine line

theorem heading_line_eq (text : Text) : headingLine text = ((Text.shownLines text)[headingNumber text]?).getD [] := by
  rw [headingLine, headingNumber, List.find?_eq_getElem?_findIdx]

theorem comment_without_return (line : Text) :
    isCommentLine ((Text.beforeTail ['\r'] line).getD line) = isCommentLine line := by
  cases cut : Text.beforeTail ['\r'] line with
  | none => rfl
  | some front =>
      have same := Text.trim_blanks [] front ['\r'] (by simp) (by simp; decide)
      rw [Text.before_tail_eq ['\r'] line front cut, Option.getD_some, isCommentLine, isCommentLine, ← same]
      rfl

theorem scored_below_comments (comments : List Text)
    (all : ∀ comment ∈ comments, '\n' ∉ comment ∧ isCommentLine comment = true) (text : Text) (some : text ≠ []) :
    ∃ heading, (Text.shownLines (Text.terminated '\n' comments ++ text))[comments.length]? = .some heading ∧
      (isCommentLine heading = false → headingNumber (Text.terminated '\n' comments ++ text) = comments.length) ∧
      (isCommentLine heading = true → comments.length < headingNumber (Text.terminated '\n' comments ++ text)) := by
  have shown := Text.shown_lines_terminated comments (fun comment member => (all comment member).1) text
  obtain ⟨heading, others, below⟩ := List.exists_cons_of_ne_nil (Text.shown_lines_ne_nil text some)
  have none : ¬ ∃ line ∈ comments.map fun line => (Text.beforeTail ['\r'] line).getD line,
      (!isCommentLine line) = true := by
    intro ⟨line, member, code⟩
    obtain ⟨comment, present, rfl⟩ := List.mem_map.mp member
    rw [comment_without_return, (all comment present).2] at code
    cases code
  have number : headingNumber (Text.terminated '\n' comments ++ text) =
      (heading :: others).findIdx (fun line => !isCommentLine line) + comments.length := by
    rw [headingNumber, shown, below, List.findIdx_append, if_neg (mt List.findIdx_lt_length.mp none), List.length_map]
  rw [List.findIdx_cons] at number
  refine ⟨heading, by simp [shown, below], fun code => ?_, fun comment => ?_⟩
  · rw [number, code]
    exact Nat.zero_add _
  · rw [number, comment]
    exact Nat.lt_add_of_pos_left (Nat.succ_pos _)

-- What a block holds before its symbol: lines of comments, and a part of the line of the symbol.
theorem lead_comments {content before above lead : Text} {floor : Nat} {occurrence : Occurrence} {extent : Extent}
    (stands : occurrence.Stands content before)
    (growth : Extent.grow (Text.pieces '\n' content) floor occurrence = some extent) (split : before = above ++ lead)
    (begins : Text.BeforePiece '\n' above) (count : above.count '\n' = extent.first) :
    ∃ comments front, lead = Text.terminated '\n' comments ++ front ∧ '\n' ∉ front ∧
      ∀ comment ∈ comments, '\n' ∉ comment ∧ isCommentLine comment = true := by
  obtain ⟨front, free, upto⟩ := Text.front_divides '\n' before (occurrence.symbol ++ occurrence.rest)
  have whole := Text.before_piece_divides '\n' above (lead ++ (occurrence.symbol ++ occurrence.rest)) begins
  rw [← List.append_assoc, ← split, ← stands.whole, count] at whole
  rw [← stands.whole, ← stands.line] at upto
  have first := Extent.grow_first _ floor occurrence extent growth
  have within : occurrence.place.line ≤ (Text.pieces '\n' content).length :=
    Nat.le_of_lt (Nat.lt_of_le_of_lt (Nat.le_add_right _ _) (heading_within stands))
  refine ⟨((Text.pieces '\n' content).take occurrence.place.line).drop extent.first, front, ?_, free, ?_⟩
  · have divided := Text.terminated_divided '\n' (Text.pieces '\n' content) extent.first occurrence.place.line (by omega)
    rw [← divided, ← whole, List.append_assoc] at upto
    exact List.append_cancel_left (split.symm.trans upto)
  · intro comment member
    refine ⟨Text.piece_free '\n' content comment (List.mem_of_mem_take (List.mem_of_mem_drop member)), ?_⟩
    exact comments_shown _ floor _ within comment (first ▸ member)

theorem scored_line_of_heading (limits : Limits) (symbols : List Text) (single : ∀ symbol ∈ symbols, '\n' ∉ symbol)
    (content : Text) :
    ∀ block ∈ find limits (Pattern.ofSymbols symbols) content, ∃ above lead trail behind heading,
      Stands limits content block above lead trail behind ∧ '\n' ∉ block.symbol ∧
        (Text.shownLines block.text)[lead.count '\n']? = some heading ∧
        (isCommentLine heading = false →
          headingNumber block.text = lead.count '\n' ∧ headingLine block.text = heading) ∧
        (isCommentLine heading = true → lead.count '\n' < headingNumber block.text) := by
  intro block member
  obtain ⟨occurrence, present, before, floor, extent, stands, made, rfl⟩ := find_origin limits _ content block member
  obtain ⟨above, lead, trail, behind, divided, split, some⟩ :=
    of_extent_stands limits content before floor occurrence extent stands made
  obtain ⟨-, -, -, growth, -⟩ := (extent_at_eq_some _ _ _ _ _).mp made
  have count : above.count '\n' = extent.first := (Nat.succ.inj divided.firstLine).symm
  obtain ⟨comments, front, leads, free, all⟩ := lead_comments stands growth split divided.lineStart count
  have number : lead.count '\n' = comments.length := by
    rw [leads, List.count_append, Text.count_terminated '\n' comments fun comment member => (all comment member).1,
      List.count_eq_zero.mpr free, Nat.add_zero]
  have text : (ofExtent occurrence extent).text =
      Text.terminated '\n' comments ++ (front ++ (occurrence.symbol ++ trail)) := by
    rw [← List.append_assoc, ← leads]
    exact divided.text
  obtain ⟨heading, line, code, comment⟩ :=
    scored_below_comments comments all (front ++ (occurrence.symbol ++ trail)) (by simp [some])
  rw [← text, ← number] at line code comment
  refine ⟨above, lead, trail, behind, heading, divided, ?_, line, fun plain => ?_, comment⟩
  · exact Pattern.occurrences_single symbols single content occurrence present
  · exact ⟨code plain, by rw [heading_line_eq, code plain, line, Option.getD_some]⟩

theorem scored_line_below_comments :
    let symbols : List Text := ["f".toList]
    let content : Text := "// a class\r\n * type\r\nabstract f()\r\n\x7b\r\n\x7d\r\n".toList
    (∀ symbol ∈ symbols, '\n' ∉ symbol) ∧
      (find ⟨100, 50⟩ (Pattern.ofSymbols symbols) content).map Block.offset = [30] ∧
      ∀ block ∈ find ⟨100, 50⟩ (Pattern.ofSymbols symbols) content, ∃ above lead trail behind heading,
        Stands ⟨100, 50⟩ content block above lead trail behind ∧ '\n' ∉ block.symbol ∧
          (Text.shownLines block.text)[lead.count '\n']? = some heading ∧
          (isCommentLine heading = false →
            headingNumber block.text = lead.count '\n' ∧ headingLine block.text = heading) ∧
          (isCommentLine heading = true → lead.count '\n' < headingNumber block.text) := by
  intro symbols content
  have single : ∀ symbol ∈ symbols, '\n' ∉ symbol := by decide
  exact ⟨single, by decide +kernel, scored_line_of_heading ⟨100, 50⟩ symbols single content⟩

-- The line of the symbol begins with a comment, so the line below it is scored.
theorem comment_before_symbol_misleads :
    let content : Text := "/* v1 */ function area() \x7b\n  return 1\n\x7d\n".toList
    (find ⟨100, 50⟩ (Pattern.ofSymbols ["area".toList]) content).map
        (fun block => (block.firstLine, block.offset, headingNumber block.text, headingLine block.text)) =
      [(1, 18, 1, "  return 1".toList)] := by
  decide +kernel

end BlockSearch.Block
