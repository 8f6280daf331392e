import BlockSearch.Block.Spans
import BlockSearch.Proofs.Block.Description
import BlockSearch.Proofs.Text.Newlines

set_option autoImplicit false

namespace BlockSearch

namespace Text

def lineStop (lines : List Text) (number : Nat) : Nat := lineOffset lines number + size (lines.getD number [])

section Offsets

variable (lines : List Text)

theorem line_stop_eq (number : Nat) (line : Text) (found : lines[number]? = some line) :
    lineStop lines number = lineOffset lines number + size line := by
  rw [lineStop, List.getD_eq_getElem?_getD, found, Option.getD_some]

theorem line_offset_further (first last : Nat) (ordered : first ≤ last) :
    lineOffset lines first + size (terminated '\n' ((lines.take last).drop first)) = lineOffset lines last := by
  rw [lineOffset, ← size_append, terminated_divided '\n' lines first last ordered, lineOffset]

theorem line_offset_below (number : Nat) (inside : number < lines.length) :
    lineOffset lines (number + 1) = lineStop lines number + 1 := by
  have found := List.getElem?_eq_getElem inside
  rw [line_stop_eq lines number _ found, lineOffset, lineOffset, List.take_succ_eq_append_getElem inside, terminated,
    List.flatMap_append, size_append, List.flatMap_singleton, size_append]
  rfl

theorem lines_before_le_length (offset : Nat) : linesBefore offset lines ≤ lines.length := by
  induction lines generalizing offset with
  | nil => exact Nat.le_refl 0
  | cons line below ih =>
      rw [linesBefore]
      split
      · exact Nat.zero_le _
      · exact Nat.succ_le_succ (ih _)

theorem lines_before_within (offset number : Nat) (inside : number < lines.length)
    (behind : lineOffset lines number < offset) (upto : offset ≤ lineStop lines number) :
    linesBefore offset lines = number + 1 := by
  have further := lines_before_le_iff offset lines number inside
  have below := lines_before_le_iff offset lines (number + 1)
  have offsets := line_offset_below lines number inside
  have bound := lines_before_le_length lines offset
  omega

end Offsets

theorem newline_free_passes (text : Text) (free : '\n' ∉ text) : ∀ c ∈ text, (c != '\n') = true :=
  fun _ member => bne_iff_ne.mpr fun same => free (same ▸ member)

theorem last_line_behind (above line : Text) (before : BeforePiece '\n' above) (free : '\n' ∉ line) :
    lastLine (above ++ line) = line := by
  have passes := newline_free_passes line.reverse (fun member => free (List.mem_reverse.mp member))
  have stops : above.reverse.takeWhile (· != '\n') = [] := by
    cases above using List.reverseRecOn with
    | nil => rfl
    | append_singleton others c =>
        obtain rfl := before c List.getLast?_concat
        rw [List.reverse_concat]
        rfl
  rw [lastLine, List.reverse_append, List.takeWhile_append_of_pos passes, stops, List.append_nil, List.reverse_reverse]

section Division

variable {content : Text}

theorem line_divides (number : Nat) (front back : Text)
    (found : (pieces '\n' content)[number]? = some (front ++ back)) :
    ∃ above behind, content = above ++ (front ++ (back ++ behind)) ∧
      size above = lineOffset (pieces '\n' content) number ∧ BeforePiece '\n' above ∧ AfterPiece '\n' behind := by
  obtain ⟨behind, after, whole⟩ := slice_divides '\n' content front back number number (Nat.le_refl _) found
  have none : terminated '\n' [] = [] := rfl
  rw [List.drop_take_self, none, List.nil_append, List.append_assoc] at whole
  exact ⟨_, behind, whole, rfl, before_piece_terminated '\n' _, after⟩

theorem free_of_line (number : Nat) (front back : Text)
    (found : (pieces '\n' content)[number]? = some (front ++ back)) : '\n' ∉ front ∧ '\n' ∉ back := by
  have free := piece_free '\n' content _ (List.mem_of_getElem? found)
  simpa using free

theorem line_stop_le (number : Nat) (inside : number < (pieces '\n' content).length) :
    lineStop (pieces '\n' content) number ≤ size content := by
  have found := List.getElem?_eq_getElem inside
  obtain ⟨above, behind, whole, start, -⟩ := line_divides number _ [] (found.trans (by rw [List.append_nil]))
  have total := congrArg size whole
  rw [size_append, size_append] at total
  rw [line_stop_eq _ number _ found]
  omega

theorem last_line_stop (number : Nat) (last : (pieces '\n' content).length = number + 1) :
    lineStop (pieces '\n' content) number = size content := by
  have inside : number < (pieces '\n' content).length := by omega
  have cut := List.take_succ_eq_append_getElem inside
  rw [← last, List.take_length] at cut
  have whole := joined_pieces '\n' content
  rw [cut, joined_append_last] at whole
  rw [line_stop_eq _ number _ (List.getElem?_eq_getElem inside), lineOffset, ← size_append, whole]

-- Consecutive lines as one slice, of which the last may be given in part only.
theorem lines_slice (first last : Nat) (shown hidden : Text) (ordered : first ≤ last)
    (found : (pieces '\n' content)[last]? = some (shown ++ hidden)) :
    content.slice (lineOffset (pieces '\n' content) first) (lineOffset (pieces '\n' content) last + size shown) =
      .ok (terminated '\n' (((pieces '\n' content).take last).drop first) ++ shown) := by
  obtain ⟨behind, -, whole⟩ := slice_divides '\n' content shown hidden first last ordered found
  rw [List.append_assoc] at whole
  refine (slice_eq_ok_iff _ _ _ _).mpr ⟨_, _, whole, rfl, ?_⟩
  rw [size_append, ← Nat.add_assoc, ← lineOffset, line_offset_further _ first last ordered]

theorem line_slice (number : Nat) (line : Text) (found : (pieces '\n' content)[number]? = some line) :
    content.slice (lineOffset (pieces '\n' content) number) (lineStop (pieces '\n' content) number) = .ok line := by
  have whole := lines_slice number number line [] (Nat.le_refl _) (by rw [found, List.append_nil])
  rw [List.drop_take_self] at whole
  rwa [line_stop_eq _ number line found]

theorem line_rest_slice (number : Nat) (front back : Text)
    (found : (pieces '\n' content)[number]? = some (front ++ back)) :
    content.slice (lineOffset (pieces '\n' content) number + size front) (lineStop (pieces '\n' content) number) =
      .ok back := by
  obtain ⟨above, behind, whole, start, -⟩ := line_divides number front back found
  refine (slice_eq_ok_iff _ _ _ _).mpr ⟨above ++ front, behind, by rw [List.append_assoc, ← whole], ?_, ?_⟩
  · rw [size_append, start]
  · rw [line_stop_eq _ number _ found, size_append, size_append, start, Nat.add_assoc]

theorem line_around (front rest : Text) (whole : content = front ++ rest) :
    size front = lineOffset (pieces '\n' content) (front.count '\n') + size (lastLine front) ∧
      (pieces '\n' content)[front.count '\n']? = some (lastLine front ++ rest.takeWhile (· != '\n')) := by
  obtain ⟨last, free, split⟩ := front_divides '\n' front rest
  rw [← whole] at split
  have ending : lastLine front = last := by
    conv_lhs => rw [split]
    exact last_line_behind _ _ (before_piece_terminated '\n' _) free
  rw [ending]
  constructor
  · conv_lhs => rw [split]
    rw [size_append, lineOffset]
  · have parts (part : Text) (member : part ∈ (pieces '\n' content).take (front.count '\n')) : '\n' ∉ part :=
      piece_free '\n' content part (List.mem_of_mem_take member)
    have cut : pieces '\n' content =
        (pieces '\n' content).take (front.count '\n') ++ pieces '\n' (last ++ rest) := by
      rw [← pieces_terminated_append '\n' _ parts, ← List.append_assoc, ← split, ← whole]
    have below := (List.take_append_drop (front.count '\n') (pieces '\n' content)).trans cut
    rw [List.append_cancel_left_eq] at below
    rw [← List.head?_drop, below, pieces_head, List.takeWhile_append_of_pos (newline_free_passes last free)]

end Division

end Text

namespace Block.Spans

open Text (pieces lineOffset lineStop)

variable {content : Text}

theorem line_end_at (number : Nat) (front back : Text)
    (found : (pieces '\n' content)[number]? = some (front ++ back)) :
    lineEnd content (lineOffset (pieces '\n' content) number + Text.size front) =
      .ok (lineStop (pieces '\n' content) number) := by
  obtain ⟨above, behind, whole, start, -, after⟩ := Text.line_divides number front back found
  have free := (Text.free_of_line number front back found).2
  have cut := Text.slice_back (above ++ front) (back ++ behind)
  rw [List.append_assoc, ← whole, Text.size_append, start] at cut
  rw [lineEnd, cut, checked_bind, Text.line_stop_eq _ number _ found, Text.size_append]
  cases behind with
  | nil =>
      have total := congrArg Text.size whole
      rw [List.append_nil, Text.size_append, Text.size_append, start] at total
      rw [List.append_nil, (Text.first_newline_none_iff _).mpr free, total]
      rfl
  | cons c others =>
      obtain rfl := after c rfl
      rw [Text.first_newline_divided _ _ free, ← Nat.add_assoc]
      rfl

theorem line_start_at (number : Nat) (front back : Text)
    (found : (pieces '\n' content)[number]? = some (front ++ back)) :
    lineStart content (lineOffset (pieces '\n' content) number + Text.size front) =
      .ok (lineOffset (pieces '\n' content) number) := by
  obtain ⟨above, behind, whole, start, before, -⟩ := Text.line_divides number front back found
  have free := (Text.free_of_line number front back found).1
  have cut := Text.slice_front (above ++ front) (back ++ behind)
  rw [List.append_assoc, ← whole, Text.size_append, start] at cut
  rw [lineStart, cut, checked_bind, ← start]
  cases above using List.reverseRecOn with
  | nil =>
      rw [List.nil_append, Text.last_newline_none _ free]
      rfl
  | append_singleton others c =>
      obtain rfl := before c List.getLast?_concat
      rw [List.append_assoc, List.singleton_append, Text.last_newline_divided _ _ free, Text.size_append]
      rfl

theorem next_line_none (number : Nat) (inside : number < (pieces '\n' content).length)
    (beyond : (pieces '\n' content)[number + 1]? = none) :
    nextLine content (lineStop (pieces '\n' content) number) = .ok none := by
  have last : (pieces '\n' content).length = number + 1 := by
    have upto := List.getElem?_eq_none_iff.mp beyond
    omega
  rw [nextLine, if_pos (Nat.le_of_eq (Text.last_line_stop number last).symm)]
  rfl

theorem next_line_below (number : Nat) (line : Text) (found : (pieces '\n' content)[number + 1]? = some line) :
    nextLine content (lineStop (pieces '\n' content) number) =
      .ok (some ⟨lineOffset (pieces '\n' content) (number + 1), lineStop (pieces '\n' content) (number + 1)⟩) := by
  have below := (List.getElem?_eq_some_iff.mp found).1
  have offset := Text.line_offset_below _ number (Nat.lt_of_succ_lt below)
  have inside := Text.line_stop_le (number + 1) below
  have ending := line_end_at (number + 1) [] line found
  rw [show Text.size [] = 0 from rfl, Nat.add_zero, offset] at ending
  rw [nextLine, if_neg (by rw [Text.lineStop] at inside; omega), ending, offset]
  rfl

end Block.Spans

end BlockSearch
