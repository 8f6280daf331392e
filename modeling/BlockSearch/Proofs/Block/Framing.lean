import BlockSearch.Proofs.Block.Floor
import BlockSearch.Proofs.Symbol.Locality
import BlockSearch.Proofs.Text.Frame

set_option autoImplicit false

namespace BlockSearch

theorem Text.take_while_stop (p : Char → Bool) (front back : Text) (stops : back.takeWhile p = []) :
    (front ++ back).takeWhile p = front.takeWhile p := by
  induction front with
  | nil => exact stops
  | cons c front ih => simp only [List.cons_append, List.takeWhile_cons, ih]

theorem Text.after_lead_both (lead indentation text : Text) :
    afterLead (lead ++ indentation) (lead ++ text) = afterLead indentation text := by
  induction lead with
  | nil => rfl
  | cons c lead ih => simpa [afterLead] using ih

namespace Frame

open BlockSearch.Symbol (Occurrence)
open BlockSearch.Block (Extent isDeeper closes opensBrace isCommentLine bodyLength blanksToClosing commentsAbove
  openingLine headingLast headingRest extentText hasCleanEdges)

variable (frame : Frame)

section Line

variable {frame} {line other : Text} (framed : frame.Frames line other)
include framed

theorem blank_framed : Text.isBlankLine other = Text.isBlankLine line := by
  obtain ⟨more, returns, rfl⟩ := framed
  have before : frame.lead.all CharClass.isBlank = true := List.all_eq_true.mpr (lead_blank frame)
  have behind : more.all CharClass.isBlank = true :=
    List.all_eq_true.mpr fun c member => returns c member ▸ by decide
  rw [Text.isBlankLine, List.all_append, List.all_append, before, behind, Bool.true_and, Bool.and_true, Text.isBlankLine]

theorem comment_framed : isCommentLine other = isCommentLine line := by
  obtain ⟨more, returns, rfl⟩ := framed
  have trimmed := Text.trim_blanks frame.lead line more (lead_blank frame) fun c member => returns c member ▸ by decide
  rw [isCommentLine, isCommentLine, trimmed]

theorem indentation_framed : Text.indentation other = frame.lead ++ Text.indentation line := by
  obtain ⟨more, returns, rfl⟩ := framed
  have stops : more.takeWhile CharClass.isIndent = [] := by
    cases more with
    | nil => rfl
    | cons c more => rw [returns c List.mem_cons_self]; rfl
  rw [Text.indentation, List.takeWhile_append_of_pos frame.indents, Text.take_while_stop _ _ _ stops, Text.indentation]

theorem opens_framed : opensBrace other = opensBrace line := by
  obtain ⟨more, returns, rfl⟩ := framed
  have blank : more.dropWhile CharClass.isBlank = [] :=
    List.dropWhile_eq_nil_iff.mpr fun c member => returns c member ▸ by decide
  rw [opensBrace, opensBrace, Text.trimStart, Text.trimStart, List.dropWhile_append_of_pos (lead_blank frame),
    List.dropWhile_append]
  cases rest : line.dropWhile CharClass.isBlank with
  | nil => simp [blank]
  | cons c rest => rfl

theorem deeper_framed (indentation : Text) (indents : ∀ c ∈ indentation, CharClass.isIndent c = true) :
    isDeeper (frame.lead ++ indentation) other = isDeeper indentation line := by
  obtain ⟨more, returns, rfl⟩ := framed
  have free : ∀ c ∈ more.head?, c ∉ indentation := by
    intro c first member
    have same := returns c (List.mem_of_mem_head? first)
    exact absurd (indents c member) (same ▸ by decide)
  rw [isDeeper, isDeeper, Text.after_lead_both, Text.after_lead_tail _ _ _ free]
  cases Text.afterLead indentation line with
  | none => rfl
  | some rest =>
      cases rest with
      | cons c rest => rfl
      | nil =>
          cases more with
          | nil => rfl
          | cons c more => rw [returns c List.mem_cons_self]; rfl

theorem closes_framed (indentation : Text) : closes (frame.lead ++ indentation) other = closes indentation line := by
  have indented := indentation_framed framed
  obtain ⟨more, returns, rfl⟩ := framed
  -- No brace stands among the carriage returns.
  have brace : ((line ++ more).drop indentation.length).head? = some '}' ↔
      (line.drop indentation.length).head? = some '}' := by
    rw [List.head?_drop, List.head?_drop, List.getElem?_append]
    split
    · rfl
    · rename_i beyond
      rw [List.getElem?_eq_none (Nat.le_of_not_lt beyond)]
      constructor
      · intro found
        exact absurd (returns _ (List.mem_of_getElem? found)) (by decide)
      · intro found
        cases found
  rw [closes, closes, indented, List.length_append, ← List.drop_drop, List.drop_left, Bool.eq_iff_iff]
  simp only [Bool.and_eq_true, beq_iff_eq, List.append_cancel_left_eq, brace]

end Line

section Lines

variable {frame} {lines others : List Text} (framed : List.Forall₂ frame.Frames lines others)
include framed

theorem body_framed (indentation : Text) (indents : ∀ c ∈ indentation, CharClass.isIndent c = true) :
    bodyLength (frame.lead ++ indentation) others = bodyLength indentation lines := by
  induction framed with
  | nil => rfl
  | cons here below ih =>
      simp only [bodyLength, blank_framed here, deeper_framed here indentation indents, ih]

theorem closing_framed (indentation : Text) :
    blanksToClosing (frame.lead ++ indentation) others = blanksToClosing indentation lines := by
  induction framed with
  | nil => rfl
  | cons here below ih =>
      simp only [blanksToClosing, blank_framed here, closes_framed here, ih]

theorem comment_run_framed : (others.takeWhile isCommentLine).length = (lines.takeWhile isCommentLine).length := by
  induction framed with
  | nil => rfl
  | cons here below ih =>
      rw [List.takeWhile_cons, List.takeWhile_cons, comment_framed here]
      split
      · rw [List.length_cons, List.length_cons, ih]
      · rfl

theorem comments_framed (floor line : Nat) : commentsAbove others floor line = commentsAbove lines floor line := by
  have above := List.forall₂_reverse_iff.mpr (List.forall₂_drop floor (List.forall₂_take line framed))
  exact comment_run_framed above

end Lines

-- The same occurrence in the framed text: in the same line with as much of it on either side, as far as a heading asks.
structure Matches (found other : Occurrence) : Prop where
  symbol : other.symbol = found.symbol
  line : other.place.line = found.place.line
  column : other.place.column = found.place.column + Text.size frame.lead
  clean : hasCleanEdges other = hasCleanEdges found
  brace : (headingRest other).contains '{' = (headingRest found).contains '{'

structure Carries (extent other : Extent) : Prop where
  first : other.first = extent.first
  last : other.last = extent.last
  text : ∃ more, (∀ c ∈ more, c = '\r') ∧ other.text = frame.apply extent.text ++ more

section Extent

variable {lines : List Text}

theorem extent_text_framed (free : ∀ line ∈ lines, '\n' ∉ line) {first last : Nat} (ordered : first ≤ last)
    (within : last < lines.length) :
    ∃ more, (∀ c ∈ more, c = '\r') ∧
      extentText (frame.lines lines) first last none = frame.apply (extentText lines first last none) ++ more := by
  have inside : last < (frame.lines lines).length := lines_length frame lines ▸ within
  obtain ⟨other, there, more, returns, rfl⟩ := line_at frame lines last lines[last] (List.getElem?_eq_getElem within)
  have same : (frame.lines lines)[last] = frame.lead ++ (lines[last] ++ more) :=
    Option.some.inj ((List.getElem?_eq_getElem inside).symm.trans there)
  have shown : ∀ part ∈ (lines.take last).drop first, '\n' ∉ part :=
    fun part member => free part (List.mem_of_mem_take (List.mem_of_mem_drop member))
  refine ⟨more, returns, ?_⟩
  rw [Block.extent_text_open _ ordered inside, Block.extent_text_open _ ordered within, same,
    lines_take frame lines last within, ← List.map_drop,
    apply_terminated frame _ _ shown (free _ (List.getElem_mem within))]
  simp only [List.append_assoc]

theorem closed_text_framed (free : ∀ line ∈ lines, '\n' ∉ line) (first last : Nat) (within : last + 1 < lines.length)
    (closing : Text) (single : '\n' ∉ closing) :
    extentText (frame.lines lines) first last (some (frame.lead ++ closing)) =
      frame.apply (extentText lines first last (some closing)) := by
  have shown : ∀ part ∈ (lines.take (last + 1)).drop first, '\n' ∉ part :=
    fun part member => free part (List.mem_of_mem_take (List.mem_of_mem_drop member))
  rw [Block.extent_text_closed, Block.extent_text_closed, apply_terminated frame _ _ shown single,
    lines_take frame lines _ within, ← List.map_drop]

theorem getD_framed (number : Nat) (within : number < lines.length) :
    frame.Frames (lines.getD number []) ((frame.lines lines).getD number []) := by
  obtain ⟨other, there, framed⟩ := line_at frame lines number lines[number] (List.getElem?_eq_getElem within)
  rw [List.getD_eq_getElem?_getD, List.getD_eq_getElem?_getD, there, List.getElem?_eq_getElem within]
  exact framed

end Extent

variable {frame} {lines : List Text} {found other : Occurrence} (alike : frame.Matches found other)

include alike in
theorem heading_last_framed : headingLast other = headingLast found := by
  rw [headingLast, headingLast, alike.symbol, alike.line]

include alike in
theorem opening_framed : openingLine (frame.lines lines) other = openingLine lines found := by
  rw [openingLine, openingLine, alike.brace, heading_last_framed alike]
  split
  · rfl
  · cases next : lines[headingLast found + 1]? with
    | none =>
        have beyond := List.getElem?_eq_none_iff.mp next
        rw [List.getElem?_eq_none (lines_length frame lines ▸ beyond)]
    | some line =>
        obtain ⟨framedLine, there, framed⟩ := line_at frame lines _ line next
        simp only [there, opens_framed framed]

include alike in
theorem grow_framed (free : ∀ line ∈ lines, '\n' ∉ line) (floor : Nat) (within : headingLast found < lines.length) :
    Option.Rel frame.Carries (Extent.grow lines floor found) (Extent.grow (frame.lines lines) floor other) := by
  have framed := lines_framed frame lines
  have heading : found.place.line < lines.length := Nat.lt_of_le_of_lt (Nat.le_add_right _ _) within
  have indented := indentation_framed (getD_framed frame found.place.line heading)
  have indents : ∀ c ∈ Text.indentation (lines.getD found.place.line []), CharClass.isIndent c = true :=
    fun _ member => List.mem_takeWhile_imp member
  rw [Extent.grow, Extent.grow, opening_framed alike]
  cases opening : openingLine lines found with
  | none => exact .none
  | some first =>
      obtain ⟨behind, inside⟩ := Block.opening_line_lt lines found first within opening
      have upto : found.place.line ≤ headingLast found := Nat.le_add_right _ _
      simp only [Option.map_some, alike.line, indented, comments_framed framed]
      generalize Text.indentation (lines.getD found.place.line []) = indentation at indents ⊢
      have body := Block.body_length_le indentation (lines.drop (first + 1))
      rw [List.length_drop] at body
      rw [body_framed (List.forall₂_drop (first + 1) framed) indentation indents,
        closing_framed (List.forall₂_drop _ framed)]
      generalize bodyLength indentation (lines.drop (first + 1)) = length at body ⊢
      cases closing : blanksToClosing indentation (lines.drop (first + length + 1)) with
      | none =>
          have ordered : found.place.line - commentsAbove lines floor found.place.line ≤ first + length := by omega
          have text := extent_text_framed frame free ordered (by omega)
          exact .some ⟨rfl, rfl, text⟩
      | some blanks =>
          obtain ⟨line, next, -⟩ := Block.blanks_to_closing_found _ _ _ closing
          rw [List.getElem?_drop] at next
          have last := (List.getElem?_eq_some_iff.mp next).1
          have single : '\n' ∉ indentation ++ ['}'] := by
            intro member
            rcases List.mem_append.mp member with indent | brace
            · exact absurd (indents _ indent) (by decide)
            · exact absurd brace (by decide)
          have text := closed_text_framed frame free (found.place.line - commentsAbove lines floor found.place.line)
            (first + length + blanks) (by omega) (indentation ++ ['}']) single
          rw [← List.append_assoc] at text
          exact .some ⟨rfl, rfl, [], by simp, by rw [List.append_nil]; exact text⟩

end Frame

end BlockSearch
