import BlockSearch.Proofs.Block.SpanLines

set_option autoImplicit false

namespace BlockSearch.Block.Spans

open BlockSearch.Symbol (Occurrence)
open Text (pieces lineOffset lineStop)

section Line

variable (indentation line : Text)

theorem indentation_of_eq : indentationOf line = .ok (Text.indentation line) := by
  have whole : Text.indentation line ++ line.dropWhile CharClass.isIndent = line := List.takeWhile_append_dropWhile
  have total := congrArg Text.size whole
  rw [Text.size_append] at total
  have width : distance (Text.size (line.dropWhile CharClass.isIndent)) line.size =
      .ok (Text.indentation line).size := by
    rw [← total, Nat.add_comm, distance_add]
  have front := Text.slice_front (Text.indentation line) (line.dropWhile CharClass.isIndent)
  rw [whole] at front
  rw [indentationOf, width, checked_bind, front]

theorem is_deeper_eq : isDeeper indentation line = .ok (Block.isDeeper indentation line) := by
  unfold isDeeper Block.isDeeper Text.startsWith
  cases lead : Text.afterLead indentation line with
  | none => rfl
  | some rest =>
      obtain rfl := Text.after_lead_eq _ _ _ lead
      rw [Option.isSome_some, if_pos rfl, Text.slice_back, checked_bind]
      cases rest <;> rfl

theorem closes_checked : closes indentation line = .ok (Block.closes indentation line) := by
  unfold closes Block.closes
  rw [indentation_of_eq, checked_bind]
  by_cases same : Text.indentation line = indentation
  · obtain ⟨rest, rfl⟩ : indentation <+: line := by
      rw [← same]
      exact List.takeWhile_prefix _
    rw [same, beq_self_eq_true, if_pos rfl, Text.slice_back, checked_bind, List.drop_left, Bool.true_and]
    rfl
  · rw [beq_false_of_ne same]
    rfl

end Line

section Below

variable {content : Text} (indentation : Text)

theorem line_below (lines : List Text) (number : Nat) (line : Text) (below : List Text)
    (rest : lines.drop number = line :: below) : lines[number]? = some line ∧ lines.drop (number + 1) = below := by
  constructor
  · rw [← List.head?_drop, rest, List.head?_cons]
  · rw [← List.tail_drop, rest, List.tail_cons]

-- The body below a line, as the place where the last line of it ends.
theorem body_stop_below (below : List Text) (number stop : Nat)
    (rest : (pieces '\n' content).drop (number + 1) = below) (inside : number < (pieces '\n' content).length) :
    bodyStop content indentation stop (lineStop (pieces '\n' content) number) =
      .ok (match bodyLength indentation below with
        | 0 => stop
        | length + 1 => lineStop (pieces '\n' content) (number + length + 1)) := by
  induction below generalizing number stop with
  | nil =>
      have beyond : (pieces '\n' content)[number + 1]? = none := by rw [← List.head?_drop, rest, List.head?_nil]
      rw [bodyStop, next_line_none number inside beyond]
      rfl
  | cons line below ih =>
      obtain ⟨found, rest⟩ := line_below _ _ _ _ rest
      have inside := (List.getElem?_eq_some_iff.mp found).1
      have further (stop : Nat) := ih (number + 1) stop rest inside
      rw [bodyStop, next_line_below number line found]
      dsimp only
      rw [Text.line_slice _ line found, checked_bind, is_deeper_eq, checked_bind, bodyLength]
      have counted (length : Nat) : number + 1 + length = number + (length + 1) := by omega
      split
      · rw [further]
        cases bodyLength indentation below with
        | zero => rfl
        | succ length => simp only [counted]
      · split
        · rw [further]
          cases bodyLength indentation below with
          | zero => rfl
          | succ length => simp only [counted]
        · rfl

theorem body_stop_eq (opening : Nat) (inside : opening < (pieces '\n' content).length) :
    bodyStop content indentation (lineStop (pieces '\n' content) opening) (lineStop (pieces '\n' content) opening) =
      .ok (lineStop (pieces '\n' content)
        (opening + bodyLength indentation ((pieces '\n' content).drop (opening + 1)))) := by
  rw [body_stop_below indentation _ opening _ rfl inside]
  cases bodyLength indentation ((pieces '\n' content).drop (opening + 1)) <;> rfl

theorem closing_stop_below (below : List Text) (number stop : Nat)
    (rest : (pieces '\n' content).drop (number + 1) = below) (inside : number < (pieces '\n' content).length) :
    closingStop content indentation stop (lineStop (pieces '\n' content) number) =
      .ok (match blanksToClosing indentation below with
        | some blanks => lineOffset (pieces '\n' content) (number + blanks + 1) + indentation.size + 1
        | none => stop) := by
  induction below generalizing number with
  | nil =>
      have beyond : (pieces '\n' content)[number + 1]? = none := by rw [← List.head?_drop, rest, List.head?_nil]
      rw [closingStop, next_line_none number inside beyond]
      rfl
  | cons line below ih =>
      obtain ⟨found, rest⟩ := line_below _ _ _ _ rest
      have inside := (List.getElem?_eq_some_iff.mp found).1
      have counted (blanks : Nat) : number + 1 + blanks = number + (blanks + 1) := by omega
      rw [closingStop, next_line_below number line found]
      dsimp only
      rw [Text.line_slice _ line found, checked_bind, closes_checked, checked_bind, blanksToClosing]
      split
      · rw [ih (number + 1) rest inside]
        cases blanksToClosing indentation below with
        | none => rfl
        | some blanks => simp only [Option.map_some, counted]
      · split <;> rfl

end Below

section Above

variable {content : Text}

theorem comments_above_floor (lines : List Text) (floor line : Nat) (below : line ≤ floor) :
    commentsAbove lines floor line = 0 := by
  have bound := comments_above_le lines floor line
  omega

theorem comments_above_succ (lines : List Text) (floor number : Nat) (line : Text) (above : floor ≤ number)
    (found : lines[number]? = some line) :
    commentsAbove lines floor (number + 1) =
      if isCommentLine line then commentsAbove lines floor number + 1 else 0 := by
  obtain ⟨inside, rfl⟩ := List.getElem?_eq_some_iff.mp found
  have order : floor ≤ (lines.take number).length := by
    rw [List.length_take]
    omega
  rw [commentsAbove, List.take_succ_eq_append_getElem inside, List.drop_append_of_le_length order, List.reverse_concat,
    List.takeWhile_cons, commentsAbove]
  split <;> rfl

theorem comments_start_above (floor number : Nat) (inside : number < (pieces '\n' content).length) :
    commentsStart content floor (lineOffset (pieces '\n' content) number) =
      .ok (lineOffset (pieces '\n' content)
        (number - commentsAbove (pieces '\n' content) (Text.linesBefore floor (pieces '\n' content)) number)) := by
  induction number with
  | zero =>
      have top : lineOffset (pieces '\n' content) 0 = 0 := rfl
      rw [commentsStart, if_pos top, Nat.zero_sub]
      rfl
  | succ number ih =>
      have above := Nat.lt_of_succ_lt inside
      have found := List.getElem?_eq_getElem above
      have offset := Text.line_offset_below _ number above
      have reached := Text.lines_before_le_iff floor (pieces '\n' content) number above
      have start := line_start_at number _ [] (found.trans (by rw [List.append_nil]))
      rw [← Text.line_stop_eq _ number _ found] at start
      have stop : distance 1 (lineOffset (pieces '\n' content) (number + 1)) =
          .ok (lineStop (pieces '\n' content) number) := by
        rw [offset, Nat.add_comm, distance_add]
      rw [commentsStart, if_neg (by omega), stop]
      dsimp only
      rw [start]
      dsimp only
      by_cases below : floor ≤ lineOffset (pieces '\n' content) number
      · rw [if_neg (Nat.not_lt.mpr below), Text.line_slice _ _ found, checked_bind,
          comments_above_succ _ _ _ _ (reached.mpr below) found]
        split
        · rw [ih above, Nat.add_sub_add_right]
        · rfl
      · have beyond : number + 1 ≤ Text.linesBefore floor (pieces '\n' content) := by
          by_contra fewer
          exact below (reached.mp (by omega))
        rw [if_pos (Nat.lt_of_not_le below), comments_above_floor _ _ _ beyond]
        rfl

end Above

section Grow

variable {content before : Text} {occurrence : Occurrence}

def ofExtent (lines : List Text) (extent : Extent) : Span :=
  ⟨lineOffset lines extent.first, lineOffset lines extent.first + extent.text.size⟩

theorem extent_stop_open (lines : List Text) (first last : Nat) (ordered : first ≤ last) (inside : last < lines.length) :
    lineOffset lines first + (extentText lines first last none).size = lineStop lines last := by
  rw [extent_text_open lines ordered inside, Text.size_append, ← Nat.add_assoc,
    Text.line_offset_further lines first last ordered, Text.line_stop_eq lines last _ (List.getElem?_eq_getElem inside)]

theorem extent_stop_closed (lines : List Text) (first last : Nat) (closing : Text) (ordered : first ≤ last + 1) :
    lineOffset lines first + (extentText lines first last (some closing)).size =
      lineOffset lines (last + 1) + closing.size := by
  rw [extent_text_closed, Text.size_append, ← Nat.add_assoc, Text.line_offset_further lines first (last + 1) ordered]

theorem closing_stop_extent (indentation : Text) (first last : Nat) (ordered : first ≤ last)
    (inside : last < (pieces '\n' content).length) :
    closingStop content indentation (lineStop (pieces '\n' content) last) (lineStop (pieces '\n' content) last) =
      .ok (lineOffset (pieces '\n' content) first +
        (match blanksToClosing indentation ((pieces '\n' content).drop (last + 1)) with
          | some blanks => extentText (pieces '\n' content) first (last + blanks) (some (indentation ++ ['}']))
          | none => extentText (pieces '\n' content) first last none).size) := by
  rw [closing_stop_below indentation _ last _ rfl inside]
  cases blanksToClosing indentation ((pieces '\n' content).drop (last + 1)) with
  | none =>
      dsimp only
      rw [extent_stop_open _ first last ordered inside]
  | some blanks =>
      dsimp only
      rw [extent_stop_closed _ first (last + blanks) _ (by omega), Text.size_append, ← Nat.add_assoc]
      rfl

theorem opening_stop_eq (within : headingLast occurrence < (pieces '\n' content).length) :
    openingStop content (lineStop (pieces '\n' content) (headingLast occurrence)) (headingRest occurrence) =
      .ok ((openingLine (pieces '\n' content) occurrence).map (lineStop (pieces '\n' content))) := by
  unfold openingStop openingLine
  split
  · rfl
  · cases below : (pieces '\n' content)[headingLast occurrence + 1]? with
    | none =>
        rw [next_line_none _ within below]
        rfl
    | some line =>
        rw [next_line_below _ line below, checked_bind]
        dsimp only
        rw [Text.line_slice _ line below, checked_bind]
        split <;> rfl

theorem heading_indentation (lines : List Text) (first last : Nat) (line : Text) (ordered : first ≤ last)
    (inside : last < lines.length) (found : lines[first]? = some line) :
    Text.indentation (extentText lines first last none) = Text.indentation line := by
  obtain ⟨-, rfl⟩ := List.getElem?_eq_some_iff.mp found
  have shown : first < (lines.take (last + 1)).length := by
    rw [List.length_take]
    omega
  obtain ⟨tail, whole, newline⟩ := Text.joined_leads '\n' lines[first] ((lines.take (last + 1)).drop (first + 1))
  have stops : tail.takeWhile CharClass.isIndent = [] := by
    cases tail with
    | nil => rfl
    | cons c others =>
        obtain rfl := Option.some.inj (newline.resolve_left (Option.some_ne_none c))
        rfl
  rw [extentText, Option.toList_none, List.append_nil, List.drop_eq_getElem_cons shown, List.getElem_take, whole,
    Text.indentation, List.takeWhile_append, stops, List.append_nil]
  split
  · rename_i all
    exact ((List.takeWhile_prefix CharClass.isIndent).eq_of_length all).symm
  · rfl

theorem heading_last_line (stands : occurrence.Stands content before) :
    (before ++ occurrence.symbol).size = lineOffset (pieces '\n' content) (headingLast occurrence) +
        (before ++ occurrence.symbol).lastLine.size ∧
      (pieces '\n' content)[headingLast occurrence]? =
        some ((before ++ occurrence.symbol).lastLine ++ headingRest occurrence) := by
  have number : (before ++ occurrence.symbol).count '\n' = headingLast occurrence := by
    rw [headingLast, stands.line, List.count_append]
  rw [← number, headingRest]
  exact Text.line_around _ _ (by rw [List.append_assoc, ← stands.whole])

theorem grow_at (stands : occurrence.Stands content before) (floor : Nat) :
    grow content (lineOffset (pieces '\n' content) occurrence.place.line)
        (before.size + occurrence.symbol.size) floor =
      .ok ((Extent.grow (pieces '\n' content) (Text.linesBefore floor (pieces '\n' content)) occurrence).map
        (ofExtent (pieces '\n' content))) := by
  have within := heading_within stands
  have upto : occurrence.place.line ≤ headingLast occurrence := Nat.le_add_right _ _
  have heading := List.getElem?_eq_getElem (Nat.lt_of_le_of_lt upto within)
  obtain ⟨size, line⟩ := heading_last_line stands
  rw [Text.size_append] at size
  have behind := Text.line_rest_slice _ _ _ line
  have stop := line_end_at _ _ _ line
  have shown := Text.lines_slice occurrence.place.line (headingLast occurrence) _ [] upto
    (by rw [List.append_nil, List.getElem?_eq_getElem within])
  rw [← extent_text_open _ upto within, ← Text.line_stop_eq _ _ _ (List.getElem?_eq_getElem within)] at shown
  rw [grow, size, stop, checked_bind, shown, checked_bind, indentation_of_eq, checked_bind, behind, checked_bind,
    opening_stop_eq within, checked_bind, heading_indentation _ _ _ _ upto within heading, Extent.grow]
  cases found : openingLine (pieces '\n' content) occurrence with
  | none => rfl
  | some opening =>
      obtain ⟨below, inside⟩ := opening_line_lt _ occurrence opening within found
      have body := body_length_le (Text.indentation (pieces '\n' content)[occurrence.place.line])
        ((pieces '\n' content).drop (opening + 1))
      have start := comments_start_above floor occurrence.place.line (Nat.lt_of_le_of_lt upto within)
      have first := Nat.sub_le occurrence.place.line (commentsAbove (pieces '\n' content)
        (Text.linesBefore floor (pieces '\n' content)) occurrence.place.line)
      rw [List.length_drop] at body
      simp only [Option.map_some, List.getD_eq_getElem?_getD, heading, Option.getD_some]
      generalize occurrence.place.line - commentsAbove _ _ _ = above at start first
      rw [body_stop_eq _ opening inside, checked_bind, closing_stop_extent _ above _ (by omega) (by omega), checked_bind,
        start, checked_bind]
      cases blanksToClosing _ _ <;> rfl

end Grow

end BlockSearch.Block.Spans
