import BlockSearch.Proofs.Block.Floor
import BlockSearch.Proofs.Block.SpanGrowth
import BlockSearch.Proofs.Text.Trimming

/-!
The search by offsets answers as the search by lines does, for every content and every list of symbols, and so never comes
to an offset that does not fit: `find_without_fault`. What it keeps from block to block is a floor, which stands for the
line behind the block before, and a count of lines, which is taken at a line above that floor.
-/

set_option autoImplicit false

namespace BlockSearch.Block.Spans

open BlockSearch.Symbol (Pattern Occurrence)
open Text (pieces lineOffset lineStop linesBefore)

section LastLine

variable {content before : Text} {floor : Nat} {occurrence : Occurrence} {extent : Extent}

-- The last line of a block is never empty: a brace stands on it, or an indentation deeper than that of the heading.
theorem last_line_some (stands : occurrence.Stands content before)
    (grown : Extent.grow (pieces '\n' content) floor occurrence = some extent) :
    ∃ line, (pieces '\n' content)[extent.last]? = some line ∧ line ≠ [] := by
  obtain ⟨opening, found, made⟩ := Option.map_eq_some_iff.mp grown
  dsimp only at made
  generalize Text.indentation _ = indentation at made
  have deeper := (body_length_greatest indentation ((pieces '\n' content).drop (opening + 1))).1
  generalize bodyLength indentation _ = length at deeper made
  split at made
  · rename_i blanks closing
    subst made
    obtain ⟨line, below, closes⟩ := blanks_to_closing_found _ _ _ closing
    obtain ⟨rest, rfl⟩ := closes_eq _ _ closes
    rw [List.getElem?_drop] at below
    have number : opening + length + blanks + 1 = opening + length + 1 + blanks := by omega
    exact ⟨_, number ▸ below, by simp⟩
  · subst made
    cases length with
    | zero =>
        rcases opening_line_cases _ occurrence opening found with ⟨rfl, brace⟩ | ⟨-, line, below, opens⟩
        · exact ⟨_, (heading_last_line stands).2, List.append_ne_nil_of_right_ne_nil _ (List.ne_nil_of_mem brace)⟩
        · refine ⟨line, below, ?_⟩
          rintro rfl
          cases opens
    | succ i =>
        obtain ⟨line, below, -, c, rest, rfl, -⟩ := deeper.2 i rfl
        rw [List.getElem?_drop] at below
        have number : opening + (i + 1) = opening + 1 + i := by omega
        exact ⟨_, number ▸ below, by simp⟩

theorem extent_slice (grown : Extent.Grown (pieces '\n' content) floor occurrence extent) :
    content.slice (ofExtent (pieces '\n' content) extent).start (ofExtent (pieces '\n' content) extent).stop =
      .ok extent.text := by
  obtain ⟨above, behind, whole, begins, count, -⟩ := grown.divides_lines
  have start : above.size = lineOffset (pieces '\n' content) extent.first := by
    have front := Text.before_piece_divides '\n' above (extent.text ++ behind) begins
    rw [← whole, count] at front
    rw [lineOffset, ← front]
  refine (Text.slice_eq_ok_iff _ _ _ _).mpr ⟨above, behind, whole, start.symm, ?_⟩
  rw [ofExtent, start]

theorem extent_newlines (grown : Extent.Grown (pieces '\n' content) floor occurrence extent) :
    extent.first + (Text.dropEndWhile (· == '\r') extent.text).utf8.count Text.newlineByte = extent.last := by
  obtain ⟨-, -, -, kept, -⟩ := Text.without_returns extent.text
  obtain ⟨above, behind, -, -, -, count, -⟩ := grown.divides_lines
  rw [Text.utf8_count_newline, kept, count]

-- The floor that a block leaves is the line behind its last one.
theorem floor_behind (stands : occurrence.Stands content before)
    (grown : Extent.grow (pieces '\n' content) floor occurrence = some extent) :
    linesBefore (ofExtent (pieces '\n' content) extent).stop (pieces '\n' content) = extent.last + 1 := by
  obtain ⟨line, found, some⟩ := last_line_some stands grown
  have made := Extent.grow_grown _ floor occurrence extent (heading_within stands) grown
  have ordered : extent.first ≤ extent.last := Nat.le_trans made.toHeading made.line_le_last
  obtain ⟨shown, hidden, last, text, ending⟩ := made.text
  obtain rfl := Option.some.inj (found.symm.trans last)
  have stop : (ofExtent (pieces '\n' content) extent).stop =
      lineOffset (pieces '\n' content) extent.last + shown.size := by
    rw [ofExtent, text, Text.size_append, ← Nat.add_assoc, Text.line_offset_further _ _ _ ordered]
  have someShown : shown ≠ [] := by
    rcases ending with rfl | ⟨brace, -⟩
    · rwa [List.append_nil] at some
    · rintro rfl
      cases brace
  have wide := Text.size_pos shown someShown
  apply Text.lines_before_within _ _ _ (List.getElem?_eq_some_iff.mp found).1
  · omega
  · rw [stop, Text.line_stop_eq _ _ _ found, Text.size_append]
    omega

end LastLine

section Occurrence

variable {content before : Text} {occurrence : Occurrence} (stands : occurrence.Stands content before)
include stands

theorem symbol_slice :
    content.slice (ofOccurrence occurrence).start (ofOccurrence occurrence).stop = .ok occurrence.symbol := by
  have part := Text.slice_divided before occurrence.symbol occurrence.rest
  rwa [← stands.whole, ← stands.offset] at part

theorem has_clean_edges_eq : hasCleanEdges content (ofOccurrence occurrence) = .ok (Block.hasCleanEdges occurrence) := by
  have front := Text.slice_front before (occurrence.symbol ++ occurrence.rest)
  have back := Text.slice_back (before ++ occurrence.symbol) occurrence.rest
  rw [← stands.whole] at front
  rw [List.append_assoc, ← stands.whole, Text.size_append] at back
  rw [hasCleanEdges, ofOccurrence, stands.offset, front, checked_bind, back, checked_bind, Block.hasCleanEdges,
    stands.previous]
  rfl

theorem span_at_eq (limits : Limits) (floor : Nat) :
    spanAt content limits floor (ofOccurrence occurrence) =
      .ok ((extentAt limits (pieces '\n' content) (linesBefore floor (pieces '\n' content)) occurrence).map
        (ofExtent (pieces '\n' content))) := by
  obtain ⟨size, line⟩ := Text.line_around before (occurrence.symbol ++ occurrence.rest) stands.whole
  rw [← stands.line] at size line
  have reached := Text.lines_before_le_iff floor (pieces '\n' content) _ (List.getElem?_eq_some_iff.mp line).1
  have start := line_start_at _ _ _ line
  have column : distance (lineOffset (pieces '\n' content) occurrence.place.line) before.size =
      .ok occurrence.place.column := by
    rw [size, distance_add, stands.column]
  have clean := has_clean_edges_eq stands
  have grown := grow_at stands floor
  rw [← size] at start
  rw [ofOccurrence, stands.offset] at clean ⊢
  unfold spanAt extentAt
  dsimp only
  by_cases below : occurrence.place.line < linesBefore floor (pieces '\n' content)
  · have above : lineOffset (pieces '\n' content) occurrence.place.line < floor := by omega
    rw [if_pos (Or.inl below), start, checked_bind, if_pos above]
    split <;> rfl
  have above : floor ≤ lineOffset (pieces '\n' content) occurrence.place.line := by omega
  rw [if_neg (by omega), start, checked_bind, if_neg (Nat.not_lt.mpr above), column, checked_bind]
  by_cases far : limits.maxColumn < occurrence.place.column
  · rw [if_pos far, if_pos (Or.inr (Or.inl far))]
    rfl
  rw [if_neg far, clean, checked_bind]
  cases edges : Block.hasCleanEdges occurrence with
  | false =>
      rw [if_pos (Or.inr (Or.inr rfl))]
      rfl
  | true =>
      have accepted : ¬ (occurrence.place.line < linesBefore floor (pieces '\n' content) ∨
          limits.maxColumn < occurrence.place.column ∨ true = false) := by simp [below, far]
      rw [if_neg accepted, grown]
      cases Extent.grow _ _ occurrence with
      | none => rfl
      | some extent =>
          have length : distance (ofExtent (pieces '\n' content) extent).start (ofExtent (pieces '\n' content) extent).stop =
              .ok extent.text.size := distance_add _ _
          simp only [Option.map_some, Bool.not_true, Bool.false_eq_true, if_false, checked_bind, length,
            Option.filter_some, decide_eq_true_eq]
          by_cases long : limits.maxSize < extent.text.size
          · rw [if_pos long, if_neg (Nat.not_le.mpr long)]
            rfl
          · rw [if_neg long, if_pos (Nat.not_lt.mp long)]
            rfl

end Occurrence

section Search

variable {content : Text} (limits : Limits)

theorem line_count_at (counted number : Nat) (ordered : counted ≤ number)
    (inside : number < (pieces '\n' content).length) :
    LineCount.upTo content ⟨lineOffset (pieces '\n' content) counted, counted⟩
        (lineOffset (pieces '\n' content) number) =
      .ok ⟨lineOffset (pieces '\n' content) number, number⟩ := by
  have passed := Text.lines_slice counted number [] _ ordered (List.getElem?_eq_getElem inside)
  have free (part : Text) (member : part ∈ ((pieces '\n' content).take number).drop counted) : '\n' ∉ part :=
    Text.piece_free '\n' content part (List.mem_of_mem_take (List.mem_of_mem_drop member))
  have count : (Text.terminated '\n' (((pieces '\n' content).take number).drop counted)).utf8.count Text.newlineByte =
      number - counted := by
    rw [Text.utf8_count_newline, Text.count_terminated '\n' _ free, List.length_drop, List.length_take,
      Nat.min_eq_left (Nat.le_of_lt inside)]
  rw [List.append_nil, show Text.size [] = 0 from rfl, Nat.add_zero] at passed
  simp only [LineCount.upTo, passed, checked_bind, count, Nat.add_sub_cancel' ordered]
  rfl

theorem collect_eq (occurrences : List Occurrence)
    (stand : ∀ occurrence ∈ occurrences, ∃ before, occurrence.Stands content before) (floor counted : Nat)
    (upto : counted ≤ linesBefore floor (pieces '\n' content)) :
    collect content limits floor ⟨lineOffset (pieces '\n' content) counted, counted⟩ (occurrences.map ofOccurrence) =
      .ok (Block.collect limits (pieces '\n' content) (linesBefore floor (pieces '\n' content)) occurrences) := by
  induction occurrences generalizing floor counted with
  | nil => rfl
  | cons occurrence rest ih =>
      obtain ⟨before, stands⟩ := stand occurrence List.mem_cons_self
      have further := ih fun other later => stand other (List.mem_cons_of_mem _ later)
      rw [List.map_cons, collect, span_at_eq stands, checked_bind, Block.collect]
      cases made : extentAt limits (pieces '\n' content) (linesBefore floor (pieces '\n' content)) occurrence with
      | none => exact further floor counted upto
      | some extent =>
          obtain ⟨above, -, -, growth, -⟩ := (extent_at_eq_some _ _ _ _ _).mp made
          have grown := Extent.grow_grown _ _ occurrence extent (heading_within stands) growth
          have reached := floor_behind stands growth
          have counting : LineCount.upTo content ⟨lineOffset (pieces '\n' content) counted, counted⟩
                (ofExtent (pieces '\n' content) extent).start =
              .ok ⟨lineOffset (pieces '\n' content) extent.first, extent.first⟩ := by
            have fromFloor := grown.fromFloor
            have within := heading_within stands
            exact line_count_at counted extent.first (by omega)
              (Nat.lt_of_le_of_lt (Nat.le_trans grown.toHeading (Nat.le_add_right _ _)) within)
          have later := further (ofExtent (pieces '\n' content) extent).stop extent.first (by
            rw [reached]
            exact Nat.le_succ_of_le (Nat.le_trans grown.toHeading grown.line_le_last))
          rw [reached] at later
          simp only [Option.map_some, extent_slice grown, checked_bind, counting, symbol_slice stands, later]
          rw [Nat.add_right_comm, extent_newlines grown]
          rfl

theorem find_without_fault (symbols : List Text) (content : Text) :
    find content limits (Pattern.ofSymbols symbols) = .ok (Block.find limits (Pattern.ofSymbols symbols) content) := by
  have newline := Text.first_newline_none_iff content
  unfold find Block.find
  cases first : Text.firstNewline content.utf8 with
  | none =>
      have free := newline.mp first
      rw [if_neg (by simpa using free)]
      rfl
  | some offset =>
      have present : '\n' ∈ content := by
        by_contra free
        rw [newline.mpr free] at first
        cases first
      rw [if_pos (by simpa using present)]
      have top : linesBefore 0 (pieces '\n' content) = 0 := by cases pieces '\n' content <;> rfl
      have whole := collect_eq limits _ (Pattern.occurrences_stand (.ofSymbols symbols) content) 0 0 (Nat.zero_le _)
      rw [top] at whole
      exact whole

end Search

end BlockSearch.Block.Spans
