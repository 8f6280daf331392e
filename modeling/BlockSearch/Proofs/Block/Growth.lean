import BlockSearch.Block.Extent
import BlockSearch.Proofs.Symbol.Placement
import Mathlib.Data.List.TakeWhile

set_option autoImplicit false

namespace BlockSearch.Block

open BlockSearch.Symbol (Occurrence)

theorem body_length_le (indentation : Text) (lines : List Text) : bodyLength indentation lines ≤ lines.length := by
  induction lines with
  | nil => exact Nat.le_refl 0
  | cons line below ih =>
      simp only [bodyLength, List.length_cons]
      split
      · split <;> omega
      · split <;> omega

theorem blanks_to_closing_found (indentation : Text) (lines : List Text) (blanks : Nat)
    (found : blanksToClosing indentation lines = some blanks) :
    ∃ line, lines[blanks]? = some line ∧ closes indentation line = true := by
  induction lines generalizing blanks with
  | nil => simp [blanksToClosing] at found
  | cons line below ih =>
      simp only [blanksToClosing] at found
      split at found
      · obtain ⟨fewer, inner, rfl⟩ := Option.map_eq_some_iff.mp found
        simpa using ih fewer inner
      · split at found
        · rename_i closing
          simp only [Option.some.injEq] at found
          exact ⟨line, by simp [← found], closing⟩
        · simp at found

theorem closes_eq (indentation line : Text) (closing : closes indentation line = true) :
    ∃ rest, line = indentation ++ '}' :: rest := by
  simp only [closes, Bool.and_eq_true, beq_iff_eq] at closing
  obtain ⟨same, brace⟩ := closing
  obtain ⟨rest, after⟩ := List.head?_eq_some_iff.mp brace
  have lead : indentation <+: line := by
    rw [← same]
    exact List.takeWhile_prefix _
  refine ⟨rest, ?_⟩
  rw [← after]
  exact (List.prefix_iff_eq_append.mp lead).symm

theorem comments_above_le (lines : List Text) (floor line : Nat) : commentsAbove lines floor line ≤ line - floor := by
  have taken := (List.takeWhile_sublist (l := ((lines.take line).drop floor).reverse) isCommentLine).length_le
  simp only [List.length_reverse, List.length_drop, List.length_take] at taken
  unfold commentsAbove
  omega

theorem comments_shown (lines : List Text) (floor line : Nat) (within : line ≤ lines.length) :
    ∀ comment ∈ (lines.take line).drop (line - commentsAbove lines floor line), isCommentLine comment = true := by
  have divided := List.takeWhile_append_dropWhile (p := isCommentLine) (l := ((lines.take line).drop floor).reverse)
  have passed (comment : Text) (member : comment ∈ ((lines.take line).drop floor).reverse.takeWhile isCommentLine) :
      isCommentLine comment = true := List.mem_takeWhile_imp member
  rw [commentsAbove]
  generalize ((lines.take line).drop floor).reverse.takeWhile isCommentLine = comments at divided passed ⊢
  generalize ((lines.take line).drop floor).reverse.dropWhile isCommentLine = others at divided
  have above : (lines.take line).drop floor = others.reverse ++ comments.reverse := by
    rw [← List.reverse_append, divided, List.reverse_reverse]
  have whole : lines.take line = (lines.take line).take floor ++ others.reverse ++ comments.reverse := by
    rw [List.append_assoc, ← above, List.take_append_drop]
  have long := congrArg List.length whole
  rw [List.length_take, Nat.min_eq_left within, List.length_append, List.length_reverse] at long
  rw [whole, List.drop_left' (by omega)]
  intro comment member
  exact passed comment (List.mem_reverse.mp member)

theorem opening_line_cases (lines : List Text) (occurrence : Occurrence) (opening : Nat)
    (found : openingLine lines occurrence = some opening) :
    opening = headingLast occurrence ∧ '{' ∈ headingRest occurrence ∨
      opening = headingLast occurrence + 1 ∧ ∃ line, lines[opening]? = some line ∧ opensBrace line = true := by
  unfold openingLine at found
  split at found
  · rename_i brace
    simp only [Option.some.injEq] at found
    exact .inl ⟨found.symm, by simpa using brace⟩
  · split at found
    · rename_i line next
      split at found
      · rename_i opens
        simp only [Option.some.injEq] at found
        exact .inr ⟨found.symm, line, by rw [← found]; exact next, opens⟩
      · simp at found
    · simp at found

theorem opening_line_lt (lines : List Text) (occurrence : Occurrence) (opening : Nat)
    (within : headingLast occurrence < lines.length) (found : openingLine lines occurrence = some opening) :
    headingLast occurrence ≤ opening ∧ opening < lines.length := by
  rcases opening_line_cases lines occurrence opening found with ⟨rfl, -⟩ | ⟨rfl, line, next, -⟩
  · exact ⟨Nat.le_refl _, within⟩
  · exact ⟨Nat.le_succ _, (List.getElem?_eq_some_iff.mp next).1⟩

theorem extent_text_open (lines : List Text) {first last : Nat} (ordered : first ≤ last)
    (within : last < lines.length) :
    extentText lines first last none = Text.terminated '\n' ((lines.take last).drop first) ++ lines[last] := by
  have order : first ≤ (lines.take last).length := by
    rw [List.length_take]
    omega
  rw [extentText, Option.toList_none, List.append_nil, List.take_succ_eq_append_getElem within,
    List.drop_append_of_le_length order, Text.joined_append_last]

theorem extent_text_closed (lines : List Text) (first last : Nat) (closing : Text) :
    extentText lines first last (some closing) =
      Text.terminated '\n' ((lines.take (last + 1)).drop first) ++ closing := by
  rw [extentText, Option.toList_some, Text.joined_append_last]

-- The lines of a grown block and their text. Only a closing brace hides a part of the last line, and then that line is
-- not the one of the heading.
structure Extent.Grown (lines : List Text) (floor : Nat) (occurrence : Occurrence) (extent : Extent) : Prop where
  opening : ∃ opening, openingLine lines occurrence = some opening ∧ headingLast occurrence ≤ opening ∧
    opening ≤ extent.last
  fromFloor : min floor occurrence.place.line ≤ extent.first
  toHeading : extent.first ≤ occurrence.place.line
  text : ∃ shown hidden, lines[extent.last]? = some (shown ++ hidden) ∧
    extent.text = Text.terminated '\n' ((lines.take extent.last).drop extent.first) ++ shown ∧
    (hidden = [] ∨ shown.getLast? = some '}' ∧ headingLast occurrence < extent.last)

theorem Extent.grow_grown (lines : List Text) (floor : Nat) (occurrence : Occurrence) (extent : Extent)
    (within : headingLast occurrence < lines.length) (grown : Extent.grow lines floor occurrence = some extent) :
    Extent.Grown lines floor occurrence extent := by
  obtain ⟨opening, found, made⟩ := Option.map_eq_some_iff.mp grown
  dsimp only at made
  obtain ⟨behind, inside⟩ := opening_line_lt lines occurrence opening within found
  have comments := comments_above_le lines floor occurrence.place.line
  have start : occurrence.place.line ≤ headingLast occurrence := Nat.le_add_right _ _
  generalize commentsAbove lines floor occurrence.place.line = above at comments made
  generalize Text.indentation (lines.getD occurrence.place.line []) = indentation at made
  have body := body_length_le indentation (lines.drop (opening + 1))
  rw [List.length_drop] at body
  generalize bodyLength indentation (lines.drop (opening + 1)) = deeper at body made
  cases closing : blanksToClosing indentation (lines.drop (opening + deeper + 1)) with
  | none =>
      simp only [closing] at made
      subst made
      have last : opening + deeper < lines.length := by omega
      refine ⟨⟨opening, found, behind, Nat.le_add_right _ _⟩, by simp only; omega, Nat.sub_le _ _,
        lines[opening + deeper], [], by simp [last], extent_text_open lines (by omega) last, .inl rfl⟩
  | some blanks =>
      simp only [closing] at made
      subst made
      obtain ⟨line, next, closes⟩ := blanks_to_closing_found _ _ _ closing
      obtain ⟨rest, cut⟩ := closes_eq _ _ closes
      rw [List.getElem?_drop] at next
      refine ⟨⟨opening, found, behind, by simp only; omega⟩, by simp only; omega, Nat.sub_le _ _,
        indentation ++ ['}'], rest, ?_, extent_text_closed lines _ _ _, .inr ⟨by simp, by simp only; omega⟩⟩
      rw [show opening + deeper + blanks + 1 = opening + deeper + 1 + blanks by omega, next, cut]
      simp

theorem Extent.grow_first (lines : List Text) (floor : Nat) (occurrence : Occurrence) (extent : Extent)
    (grown : Extent.grow lines floor occurrence = some extent) :
    extent.first = occurrence.place.line - commentsAbove lines floor occurrence.place.line := by
  obtain ⟨opening, -, rfl⟩ := Option.map_eq_some_iff.mp grown
  dsimp only
  split <;> rfl

theorem heading_within {content before : Text} {occurrence : Occurrence} (stands : occurrence.Stands content before) :
    headingLast occurrence < (Text.pieces '\n' content).length := by
  rw [Text.pieces_length, stands.whole, headingLast, stands.line, List.count_append, List.count_append]
  omega

namespace Extent.Grown

variable {content before : Text} {floor : Nat} {occurrence : Occurrence} {extent : Extent}

theorem heading_le_last {lines : List Text} (grown : Extent.Grown lines floor occurrence extent) :
    headingLast occurrence ≤ extent.last := by
  obtain ⟨opening, -, behind, upto⟩ := grown.opening
  exact Nat.le_trans behind upto

theorem line_le_last {lines : List Text} (grown : Extent.Grown lines floor occurrence extent) :
    occurrence.place.line ≤ extent.last :=
  Nat.le_trans (Nat.le_add_right _ _) grown.heading_le_last

theorem brace_behind {lines : List Text} (grown : Extent.Grown lines floor occurrence extent)
    (last : extent.last = headingLast occurrence) : '{' ∈ headingRest occurrence := by
  obtain ⟨opening, found, -, upto⟩ := grown.opening
  rcases opening_line_cases lines occurrence opening found with ⟨-, brace⟩ | ⟨below, -⟩
  · exact brace
  · omega

theorem divides_lines (grown : Extent.Grown (Text.pieces '\n' content) floor occurrence extent) :
    ∃ above behind, content = above ++ (extent.text ++ behind) ∧ Text.BeforePiece '\n' above ∧
      above.count '\n' = extent.first ∧ extent.first + extent.text.count '\n' = extent.last ∧
      (Text.AfterPiece '\n' behind ∨
        extent.text.getLast? = some '}' ∧ headingLast occurrence < extent.last) := by
  obtain ⟨shown, hidden, found, text, ending⟩ := grown.text
  have ordered : extent.first ≤ extent.last := Nat.le_trans grown.toHeading grown.line_le_last
  have within := (List.getElem?_eq_some_iff.mp found).1
  obtain ⟨behind, after, whole⟩ := Text.slice_divides '\n' content shown hidden _ _ ordered found
  rw [← text, List.append_assoc] at whole
  have free : ∀ piece ∈ Text.pieces '\n' content, '\n' ∉ piece := Text.piece_free '\n' content
  have shownFree : '\n' ∉ shown := fun member =>
    free _ (List.mem_of_getElem? found) (List.mem_append_left hidden member)
  refine ⟨_, hidden ++ behind, whole, Text.before_piece_terminated '\n' _, ?_, ?_, ?_⟩
  · rw [Text.count_terminated '\n' _ fun piece member => free piece (List.mem_of_mem_take member), List.length_take]
    omega
  · rw [text, List.count_append, List.count_eq_zero.mpr shownFree,
      Text.count_terminated '\n' _ fun piece member => free piece (List.mem_of_mem_take (List.mem_of_mem_drop member)),
      List.length_drop, List.length_take]
    omega
  · rcases ending with rfl | ⟨brace, beyond⟩
    · exact .inl after
    · exact .inr ⟨by rw [text, List.getLast?_append, brace]; rfl, beyond⟩

theorem lead_of_front (stands : occurrence.Stands content before) (above rest : Text) (whole : content = above ++ rest)
    (begins : Text.BeforePiece '\n' above) (count : above.count '\n' ≤ occurrence.place.line) :
    ∃ lead, before = above ++ lead ∧ rest = lead ++ occurrence.symbol ++ occurrence.rest := by
  have reaches : above <+: before := by
    apply Text.before_piece_prefix '\n' content above before ⟨rest, whole.symm⟩ ⟨_, stands.whole.symm⟩ begins
    rw [← stands.line]
    exact count
  obtain ⟨lead, split⟩ := reaches
  have both := whole.symm.trans stands.whole
  rw [← split, List.append_assoc, List.append_cancel_left_eq] at both
  exact ⟨lead, split.symm, by rw [both, List.append_assoc]⟩

theorem heading_rest_eq (trail behind : Text) (rest : occurrence.rest = trail ++ behind) (free : '\n' ∉ trail)
    (after : Text.AfterPiece '\n' behind) : headingRest occurrence = trail := by
  rw [headingRest, rest, List.takeWhile_append_of_pos]
  · cases behind with
    | nil => simp
    | cons c others => simp [after c (by simp)]
  · intro c member
    simp only [bne_iff_ne, ne_eq]
    intro newline
    exact free (newline ▸ member)

theorem divides (stands : occurrence.Stands content before)
    (grown : Extent.Grown (Text.pieces '\n' content) floor occurrence extent) :
    ∃ above lead trail behind, content = above ++ (extent.text ++ behind) ∧ before = above ++ lead ∧
      extent.text = lead ++ (occurrence.symbol ++ trail) ∧ Text.BeforePiece '\n' above ∧
      above.count '\n' = extent.first ∧ extent.first + extent.text.count '\n' = extent.last ∧
      (Text.AfterPiece '\n' behind ∨ extent.text.getLast? = some '}') ∧ ('\n' ∈ trail ∨ '{' ∈ trail) := by
  obtain ⟨above, behind, whole, begins, aboveCount, textCount, ending⟩ := grown.divides_lines
  obtain ⟨lead, split, same⟩ := lead_of_front stands above _ whole begins (aboveCount ▸ grown.toHeading)
  have symbolCount : extent.first + (lead ++ occurrence.symbol).count '\n' = headingLast occurrence := by
    rw [headingLast, stands.line, split, List.count_append, List.count_append, aboveCount, Nat.add_assoc]
  have upto := grown.heading_le_last
  suffices inside : ∃ trail, lead ++ occurrence.symbol ++ trail = extent.text ∧ ('\n' ∈ trail ∨ '{' ∈ trail) by
    obtain ⟨trail, cut, kept⟩ := inside
    rw [List.append_assoc] at cut
    exact ⟨above, lead, trail, behind, whole, split, cut.symm, begins, aboveCount, textCount,
      ending.imp_right And.left, kept⟩
  by_cases later : headingLast occurrence < extent.last
  · -- The symbol ends on a line before the last one, so a newline of the block stands behind it.
    have inside : lead ++ occurrence.symbol <+: extent.text := by
      rcases List.prefix_or_prefix_of_prefix ⟨_, same.symm⟩ (List.prefix_append extent.text _) with shorter | longer
      · exact shorter
      · have fewer := longer.sublist.count_le '\n'
        omega
    obtain ⟨trail, cut⟩ := inside
    have counted := congrArg (List.count '\n') cut
    rw [List.count_append] at counted
    exact ⟨trail, cut, .inl (List.count_pos_iff.mp (by omega))⟩
  · -- The block ends on the line on which the symbol ends, and the brace stands between the two ends.
    have after : Text.AfterPiece '\n' behind := ending.resolve_right fun beyond => later beyond.2
    obtain ⟨trail, cut⟩ := Text.after_piece_prefix '\n' extent.text _ behind ⟨_, same.symm⟩ after (by omega)
    have counted := congrArg (List.count '\n') cut
    rw [List.count_append] at counted
    have rest : occurrence.rest = trail ++ behind := by
      rw [← cut, List.append_assoc] at same
      simpa using same.symm
    have heading := heading_rest_eq trail behind rest (List.count_eq_zero.mp (by omega)) after
    exact ⟨trail, cut, .inr (heading ▸ grown.brace_behind (by omega))⟩

end Extent.Grown

theorem grow_size_le {content before : Text} {floor : Nat} {occurrence : Occurrence} {extent : Extent}
    (stands : occurrence.Stands content before)
    (growth : Extent.grow (Text.pieces '\n' content) floor occurrence = some extent) :
    Text.size extent.text ≤ Text.size content := by
  have grown := Extent.grow_grown _ floor occurrence extent (heading_within stands) growth
  obtain ⟨above, behind, whole, -⟩ := grown.divides_lines
  rw [whole, Text.size_append, Text.size_append]
  omega

end BlockSearch.Block
