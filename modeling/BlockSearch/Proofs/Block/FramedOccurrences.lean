import BlockSearch.Proofs.Block.Framing
import BlockSearch.Proofs.Block.Geometry

set_option autoImplicit false

namespace BlockSearch

open BlockSearch.Symbol (Pattern Place Occurrence Takings)
open BlockSearch.Block (hasCleanEdges headingRest rejectedBefore rejectedAfter)

def Text.EndsLine (text : Text) : Prop := ∀ c ∈ text.takeWhile (· != '\n'), c = '\r'

theorem Text.ends_line_newline (returns below : Text) (cut : ∀ c ∈ returns, c = '\r') :
    Text.EndsLine (returns ++ '\n' :: below) :=
  Block.take_line_append returns _ (fun c member => beq_iff_eq.mpr (cut c member)) (by simp [Text.AfterPiece])

section EndsLine

variable {tail : Text} (ends : Text.EndsLine tail)
include ends

theorem Text.ends_line_head : ∀ c ∈ tail.head?, c = '\n' ∨ c = '\r' := by
  intro c first
  obtain ⟨rest, rfl⟩ := List.head?_eq_some_iff.mp (Option.mem_def.mp first)
  by_cases newline : c = '\n'
  · exact .inl newline
  · exact .inr (ends c (by simp [newline]))

theorem Text.ends_line_edge (rest : Text) :
    (rest ++ tail).head?.any rejectedAfter.contains = rest.head?.any rejectedAfter.contains := by
  cases rest with
  | cons c rest => rfl
  | nil =>
      cases tail with
      | nil => rfl
      | cons c tail => rcases Text.ends_line_head ends c rfl with rfl | rfl <;> rfl

theorem Text.ends_line_brace (rest : Text) (free : '\n' ∉ rest) :
    ((rest ++ tail).takeWhile (· != '\n')).contains '{' = (rest.takeWhile (· != '\n')).contains '{' := by
  have passes : ∀ c ∈ rest, (c != '\n') = true := by
    intro c member
    exact bne_iff_ne.mpr fun newline => free (newline ▸ member)
  have none : '{' ∉ tail.takeWhile (· != '\n') := fun member => absurd (ends _ member) (by decide)
  rw [List.takeWhile_append_of_pos passes, List.takeWhile_eq_self_iff.mpr passes, Bool.eq_iff_iff]
  simp only [List.contains_iff_mem, List.mem_append, none, or_false]

end EndsLine

def Text.Margin (previous : Option Char) : Prop := ∀ c ∈ previous, c = '\n' ∨ CharClass.isIndent c = true

section Margin

variable {previous : Option Char} (margin : Text.Margin previous)
include margin

theorem Text.margin_no_word : previous.any CharClass.isWord = false := by
  cases previous with
  | none => rfl
  | some c =>
      rcases margin c rfl with rfl | indent
      · decide
      · exact CharClass.indent_is_no_word c indent

theorem Text.margin_clean : previous.any rejectedBefore.contains = false := by
  cases previous with
  | none => rfl
  | some c =>
      rcases margin c rfl with rfl | indent
      · rfl
      · simp only [CharClass.isIndent, Bool.or_eq_true, beq_iff_eq] at indent
        rcases indent with rfl | rfl <;> rfl

end Margin

theorem Symbol.Occurrence.followed_by_nil : Occurrence.followedBy [] = id := by
  funext found
  rw [Occurrence.followedBy, List.append_nil, id]

structure Symbol.Place.StartsLine (place : Place) : Prop where
  column : place.column = 0
  margin : Text.Margin place.previous

theorem Symbol.Place.start_starts : Place.start.StartsLine := ⟨rfl, by simp [Place.start, Text.Margin]⟩

theorem Symbol.Place.newline_line (place : Place) : (place.pass '\n').line = place.line + 1 := rfl

theorem Symbol.Place.newline_starts (place : Place) : (place.pass '\n').StartsLine :=
  ⟨rfl, by simp [Place.pass, Text.Margin]⟩

namespace Frame

variable (frame : Frame)

-- Symbols that are not read across a line end, nor in the lead of a line.
structure Fits (symbols : List Text) : Prop where
  newline : ∀ symbol ∈ symbols, '\n' ∉ symbol
  returns : frame.ending ≠ [] → ∀ symbol ∈ symbols, '\r' ∉ symbol
  trimmed : frame.lead ≠ [] → ∀ symbol ∈ symbols, Text.trim symbol = symbol

structure Moves (place other : Place) : Prop where
  line : other.line = place.line
  column : other.column = place.column + Text.size frame.lead
  clean : other.previous.any rejectedBefore.contains = place.previous.any rejectedBefore.contains

variable {frame}

theorem Moves.pass {place other : Place} (moves : frame.Moves place other) (c : Char) (inside : c ≠ '\n') :
    frame.Moves (place.pass c) (other.pass c) := by
  obtain ⟨line, column, -⟩ := moves
  rw [Place.pass, Place.pass, if_neg inside, if_neg inside]
  exact ⟨line, by simp only; omega, rfl⟩

theorem Moves.followed {a b : Occurrence} (moves : frame.Moves a.place b.place) (symbol : b.symbol = a.symbol)
    (rest : b.rest = a.rest) (free : '\n' ∉ a.rest) {tail other : Text} (ends : Text.EndsLine tail)
    (otherEnds : Text.EndsLine other) : frame.Matches (a.followedBy tail) (b.followedBy other) where
  symbol := symbol
  line := moves.line
  column := moves.column
  clean := by
    simp only [hasCleanEdges, Occurrence.followedBy, moves.clean, rest, Text.ends_line_edge ends,
      Text.ends_line_edge otherEnds]
  brace := by
    simp only [headingRest, Occurrence.followedBy, rest, Text.ends_line_brace ends _ free,
      Text.ends_line_brace otherEnds _ free]

theorem lead_margin (previous : Option Char) (margin : Text.Margin previous) :
    Text.Margin (frame.lead.getLast?.or previous) := by
  intro c last
  rcases Option.or_eq_some_iff.mp last with here | ⟨-, before⟩
  · exact .inr (frame.indents c (List.mem_of_getLast? here))
  · exact margin c before

theorem lead_moves (place other : Place) (line : other.line = place.line) (starts : place.StartsLine)
    (otherStarts : other.StartsLine) : frame.Moves place (other.after frame.lead) := by
  refine ⟨?_, ?_, ?_⟩
  · rw [Place.after_line, List.count_eq_zero.mpr (lead_free frame), line, Nat.add_zero]
  · rw [Place.after_column _ _ (lead_free frame), starts.column, otherStarts.column]
  · rw [Place.after_previous, Text.margin_clean (lead_margin _ otherStarts.margin), Text.margin_clean starts.margin]

section Symbols

variable (frame) {symbols : List Text} (nonempty : symbols ≠ []) (fits : frame.Fits symbols)

include fits in
theorem ending_apart :
    ∀ c ∈ frame.ending ++ ['\n'], CharClass.isWord c = false ∧ ∀ symbol ∈ symbols, c ∉ symbol := by
  intro c member
  rcases List.mem_append.mp member with within | last
  · rw [frame.returns c within]
    exact ⟨by decide, fits.returns (List.ne_nil_of_mem within)⟩
  · rw [List.mem_singleton.mp last]
    exact ⟨by decide, fits.newline⟩

include nonempty

include fits in
theorem occurrences_behind_lead (place : Place) (margin : Text.Margin place.previous) (rest : Text) :
    (Pattern.ofSymbols symbols).occurrencesAt place (frame.lead ++ rest) =
      (Pattern.ofSymbols symbols).occurrencesAt (place.after frame.lead) rest := by
  have goesOn : ∀ c ∈ frame.lead, Text.Margin (some c) := by
    intro c member d same
    exact .inr (Option.some.inj same ▸ frame.indents c member)
  have nothing : ∀ c ∈ frame.lead, ∀ previous text, Text.Margin previous →
      (Pattern.ofSymbols symbols).read previous (c :: text) = none := by
    intro c member previous text before
    exact Pattern.of_trimmed_nothing symbols nonempty (fits.trimmed (List.ne_nil_of_mem member)) c
      (frame.indents c member) previous (Text.margin_no_word before) text
  have passed := Symbol.occurrences_from_front (Pattern.ofSymbols symbols).read Text.Margin frame.lead rest goesOn nothing
    place place.previous margin
  rw [← Place.after_previous] at passed
  exact passed

theorem line_framed (place other : Place) (line : other.line = place.line) (starts : place.StartsLine)
    (otherStarts : other.StartsLine) (text tail otherTail : Text) (free : '\n' ∉ text) (ends : Text.EndsLine tail)
    (otherEnds : Text.EndsLine otherTail) :
    List.Forall₂ frame.Matches
      (((Pattern.ofSymbols symbols).occurrencesAt place text).map (Occurrence.followedBy tail))
      (((Pattern.ofSymbols symbols).occurrencesAt (other.after frame.lead) text).map
        (Occurrence.followedBy otherTail)) := by
  have margin : Text.Margin (other.after frame.lead).previous := by
    rw [Place.after_previous]
    exact lead_margin _ otherStarts.margin
  have taken := Symbol.takings_see _ (Pattern.of_symbols_see symbols nonempty) place.previous
    (other.after frame.lead).previous text
    ((Text.margin_no_word starts.margin).trans (Text.margin_no_word margin).symm)
  have moved := Symbol.occurrences_from_moved frame.Moves (fun _ _ c moves inside => moves.pass c inside) 0 place
    (other.after frame.lead) (Takings.ofReader (Pattern.ofSymbols symbols).read place.previous text) text free
    (lead_moves place other line starts otherStarts)
  rw [List.forall₂_map_left_iff, List.forall₂_map_right_iff, Pattern.occurrencesAt, Pattern.occurrencesAt, ← taken]
  exact moved.imp fun _ _ ⟨symbol, rest, inside, moves⟩ => moves.followed symbol rest inside ends otherEnds

include fits

theorem occurrences_at_framed (parts : List Text) (free : ∀ part ∈ parts, '\n' ∉ part) (some : parts ≠ [])
    (place other : Place) (line : other.line = place.line) (starts : place.StartsLine)
    (otherStarts : other.StartsLine) :
    List.Forall₂ frame.Matches ((Pattern.ofSymbols symbols).occurrencesAt place (Text.joined ['\n'] parts))
      ((Pattern.ofSymbols symbols).occurrencesAt other (Text.joined ['\n'] (frame.lines parts))) := by
  induction parts generalizing place other with
  | nil => exact absurd rfl some
  | cons part parts ih =>
      have single := free part List.mem_cons_self
      have here := line_framed frame nonempty place other line starts otherStarts part
      by_cases last : parts = []
      · subst last
        have nothing : Text.EndsLine [] := fun c member => absurd member List.not_mem_nil
        have alone := here [] [] single nothing nothing
        rw [Occurrence.followed_by_nil, List.map_id, List.map_id,
          ← occurrences_behind_lead frame nonempty fits other otherStarts.margin] at alone
        simpa [Text.joined, lines] using alone
      · have divided := Pattern.occurrences_at_gap symbols nonempty ['\n'] (List.cons_ne_nil _ _)
          (by simpa using ⟨by decide, fits.newline⟩) place part (Text.joined ['\n'] parts)
        have otherDivided := Pattern.occurrences_at_gap symbols nonempty (frame.ending ++ ['\n']) (by simp)
          (ending_apart frame fits) (other.after frame.lead) part (Text.joined ['\n'] (frame.lines parts))
        simp only [List.append_assoc, List.singleton_append, Place.after_last] at divided otherDivided
        rw [Text.joined_cons '\n' part parts last, lines_cons frame part parts last,
          Text.joined_cons '\n' _ _ (lines_ne_nil frame parts last), Frame.line, List.append_assoc, List.append_assoc,
          occurrences_behind_lead frame nonempty fits other otherStarts.margin, divided, otherDivided]
        have front := here _ _ single (Text.ends_line_newline [] (Text.joined ['\n'] parts) (by simp))
          (Text.ends_line_newline frame.ending (Text.joined ['\n'] (frame.lines parts)) frame.returns)
        have next : ((((other.after frame.lead).after part).after frame.ending).pass '\n').line =
            ((place.after part).pass '\n').line := by
          simp only [Place.newline_line, Place.after_line, List.count_eq_zero.mpr (lead_free frame),
            List.count_eq_zero.mpr (ending_free frame), line, Nat.add_zero]
        exact List.rel_append front (ih (fun other later => free other (List.mem_cons_of_mem _ later)) last _ _ next
          (Place.newline_starts _) (Place.newline_starts _))

theorem occurrences_framed (content : Text) :
    List.Forall₂ frame.Matches ((Pattern.ofSymbols symbols).occurrences content)
      ((Pattern.ofSymbols symbols).occurrences (frame.apply content)) := by
  have free := Text.piece_free '\n' content
  have some := Text.pieces_ne_nil '\n' content
  have framed := occurrences_at_framed frame nonempty fits _ free some .start .start rfl Place.start_starts
    Place.start_starts
  rw [← apply_joined frame _ free some, Text.joined_pieces] at framed
  rw [Pattern.occurrences_at_start, Pattern.occurrences_at_start]
  exact framed

end Symbols

end Frame

end BlockSearch
