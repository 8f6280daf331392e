import BlockSearch.Proofs.Text.Trimming
import Mathlib.Data.List.Forall2

set_option autoImplicit false

namespace BlockSearch

structure Frame where
  lead : Text
  ending : Text
  indents : ∀ c ∈ lead, CharClass.isIndent c = true
  returns : ∀ c ∈ ending, c = '\r'

namespace Frame

variable (frame : Frame)

def apply (text : Text) : Text :=
  frame.lead ++ text.flatMap fun c => if c = '\n' then frame.ending ++ '\n' :: frame.lead else [c]

def line (line : Text) : Text := frame.lead ++ (line ++ frame.ending)

def lines : List Text → List Text
  | [] => []
  | [last] => [frame.lead ++ last]
  | first :: next :: below => frame.line first :: lines (next :: below)

def Frames (line other : Text) : Prop := ∃ more, (∀ c ∈ more, c = '\r') ∧ other = frame.lead ++ (line ++ more)

theorem lead_free : '\n' ∉ frame.lead := fun member => absurd (frame.indents _ member) (by decide)

theorem ending_free : '\n' ∉ frame.ending := fun member => absurd (frame.returns _ member) (by decide)

theorem lead_blank : ∀ c ∈ frame.lead, CharClass.isBlank c = true :=
  fun c member => CharClass.indent_is_blank c (frame.indents c member)

theorem apply_free (text : Text) (free : '\n' ∉ text) : frame.apply text = frame.lead ++ text := by
  have kept : (text.flatMap fun c => if c = '\n' then frame.ending ++ '\n' :: frame.lead else [c]) = text := by
    induction text with
    | nil => rfl
    | cons c text ih =>
        obtain ⟨other, behind⟩ := not_or.mp (fun member => free (List.mem_cons.mpr member))
        rw [List.flatMap_cons, if_neg (Ne.symm other), ih behind, List.singleton_append]
  rw [apply, kept]

theorem apply_append (front back : Text) :
    frame.apply (front ++ back) =
      frame.apply front ++ back.flatMap fun c => if c = '\n' then frame.ending ++ '\n' :: frame.lead else [c] := by
  rw [apply, apply, List.flatMap_append, List.append_assoc]

theorem apply_line (line rest : Text) (free : '\n' ∉ line) :
    frame.apply (line ++ '\n' :: rest) = frame.line line ++ '\n' :: frame.apply rest := by
  rw [apply_append, apply_free frame line free, List.flatMap_cons, if_pos rfl, Frame.line, apply]
  simp only [List.append_assoc, List.cons_append]

theorem apply_returns (text cut : Text) (returns : ∀ c ∈ cut, c = '\r') :
    frame.apply (text ++ cut) = frame.apply text ++ cut := by
  have free : '\n' ∉ cut := fun member => absurd (returns _ member) (by decide)
  have kept := apply_free frame cut free
  rw [apply, List.append_cancel_left_eq] at kept
  rw [apply_append, kept]

theorem lines_cons (first : Text) (below : List Text) (some : below ≠ []) :
    frame.lines (first :: below) = frame.line first :: frame.lines below := by
  cases below with
  | nil => exact absurd rfl some
  | cons next below => rfl

theorem lines_ne_nil (parts : List Text) (some : parts ≠ []) : frame.lines parts ≠ [] := by
  cases parts with
  | nil => exact absurd rfl some
  | cons first below => cases below <;> exact List.cons_ne_nil _ _

theorem apply_joined (parts : List Text) (free : ∀ part ∈ parts, '\n' ∉ part) (some : parts ≠ []) :
    frame.apply (Text.joined ['\n'] parts) = Text.joined ['\n'] (frame.lines parts) := by
  induction parts with
  | nil => exact absurd rfl some
  | cons part parts ih =>
      have here := free part List.mem_cons_self
      by_cases last : parts = []
      · subst last
        simpa [Text.joined, lines] using apply_free frame part here
      · rw [Text.joined_cons '\n' part parts last, apply_line frame part _ here,
          ih (fun other later => free other (List.mem_cons_of_mem _ later)) last, lines_cons frame part parts last,
          Text.joined_cons '\n' _ _ (lines_ne_nil frame parts last)]

theorem line_free (part : Text) (free : '\n' ∉ part) : '\n' ∉ frame.line part := by
  intro member
  rcases List.mem_append.mp member with before | within
  · exact lead_free frame before
  · rcases List.mem_append.mp within with inside | behind
    · exact free inside
    · exact ending_free frame behind

theorem lines_free (parts : List Text) (free : ∀ part ∈ parts, '\n' ∉ part) :
    ∀ line ∈ frame.lines parts, '\n' ∉ line := by
  induction parts with
  | nil => exact fun line member => absurd member List.not_mem_nil
  | cons part parts ih =>
      have framed := line_free frame part (free part List.mem_cons_self)
      by_cases last : parts = []
      · intro line member newline
        rw [last, lines, List.mem_singleton] at member
        subst member
        apply framed
        rw [Frame.line, ← List.append_assoc]
        exact List.mem_append_left _ newline
      · rw [lines_cons frame part parts last]
        exact List.forall_mem_cons.mpr
          ⟨framed, ih fun other later => free other (List.mem_cons_of_mem _ later)⟩

theorem pieces_apply (text : Text) : Text.pieces '\n' (frame.apply text) = frame.lines (Text.pieces '\n' text) := by
  have free := Text.piece_free '\n' text
  have some := Text.pieces_ne_nil '\n' text
  conv_lhs => rw [← Text.joined_pieces '\n' text, apply_joined frame _ free some]
  exact Text.pieces_joined '\n' _ (lines_free frame _ free) (lines_ne_nil frame _ some)

theorem lines_framed (parts : List Text) : List.Forall₂ frame.Frames parts (frame.lines parts) := by
  induction parts with
  | nil => exact .nil
  | cons part parts ih =>
      by_cases last : parts = []
      · subst last
        exact .cons ⟨[], by simp, by simp⟩ .nil
      · rw [lines_cons frame part parts last]
        exact .cons ⟨frame.ending, frame.returns, rfl⟩ ih

theorem lines_length (parts : List Text) : (frame.lines parts).length = parts.length :=
  (lines_framed frame parts).length_eq.symm

theorem count_apply (text : Text) : (frame.apply text).count '\n' = text.count '\n' := by
  have lengths := lines_length frame (Text.pieces '\n' text)
  rw [← pieces_apply, Text.pieces_length, Text.pieces_length] at lengths
  exact Nat.succ.inj lengths

theorem line_at (parts : List Text) (number : Nat) (line : Text) (found : parts[number]? = some line) :
    ∃ other, (frame.lines parts)[number]? = some other ∧ frame.Frames line other := by
  obtain ⟨within, rfl⟩ := List.getElem?_eq_some_iff.mp found
  have inside : number < (frame.lines parts).length := lines_length frame parts ▸ within
  exact ⟨(frame.lines parts)[number], List.getElem?_eq_getElem inside,
    (lines_framed frame parts).get within inside⟩

theorem lines_take (parts : List Text) (count : Nat) (less : count < parts.length) :
    (frame.lines parts).take count = (parts.take count).map frame.line := by
  induction parts generalizing count with
  | nil => exact absurd less (Nat.not_lt_zero count)
  | cons part parts ih =>
      cases count with
      | zero => rfl
      | succ count =>
          have behind : count < parts.length := Nat.lt_of_succ_lt_succ less
          have some : parts ≠ [] := List.ne_nil_of_length_pos (Nat.zero_lt_of_lt behind)
          rw [lines_cons frame part parts some, List.take_succ_cons, List.take_succ_cons, ih count behind, List.map_cons]

theorem apply_terminated (parts : List Text) (last : Text) (free : ∀ part ∈ parts, '\n' ∉ part) (single : '\n' ∉ last) :
    frame.apply (Text.terminated '\n' parts ++ last) =
      Text.terminated '\n' (parts.map frame.line) ++ (frame.lead ++ last) := by
  induction parts with
  | nil => exact apply_free frame last single
  | cons part parts ih =>
      have behind := ih fun other later => free other (List.mem_cons_of_mem _ later)
      have here := apply_line frame part (Text.terminated '\n' parts ++ last) (free part List.mem_cons_self)
      rw [behind] at here
      simpa [Text.terminated] using here

theorem size_apply_le (text : Text) : Text.size text ≤ Text.size (frame.apply text) := by
  induction text with
  | nil => exact Nat.zero_le _
  | cons c text ih =>
      have cut := apply_append frame [c] text
      rw [List.singleton_append] at cut
      rw [apply, Text.size_append] at ih
      rw [cut, Text.size_append, Text.size_cons, apply, Text.size_append, List.flatMap_singleton]
      split
      · rename_i newline
        rw [newline, Text.size_append, Text.size_cons]
        omega
      · rw [Text.size_cons]
        omega

theorem apply_last (text : Text) (kept : ∀ c ∈ text.getLast?, (c == '\r') = false) :
    ∀ c ∈ (frame.apply text).getLast?, (c == '\r') = false := by
  -- The lead ends with no carriage return, wherever the text ends in it.
  have lead (front : Text) (before : ∀ c ∈ front.getLast?, (c == '\r') = false) :
      ∀ c ∈ (front ++ frame.lead).getLast?, (c == '\r') = false := by
    intro c last
    rw [List.getLast?_append, Option.mem_def, Option.or_eq_some_iff] at last
    rcases last with here | ⟨-, there⟩
    · have indent := frame.indents c (List.mem_of_getLast? here)
      exact beq_false_of_ne fun same => absurd (same ▸ indent) (by decide)
    · exact before c there
  cases text using List.reverseRecOn with
  | nil => simpa [apply] using lead [] (by simp)
  | append_singleton front d =>
      rw [apply_append, List.flatMap_singleton]
      split
      · rw [← List.singleton_append, ← List.append_assoc, ← List.append_assoc]
        exact lead _ (by simp)
      · intro c last
        rw [List.getLast?_concat] at last
        exact kept c (by rw [List.getLast?_concat]; exact last)

theorem trimmed (text more : Text) (returns : ∀ c ∈ more, c = '\r') :
    Text.dropEndWhile (· == '\r') (frame.apply text ++ more) =
      frame.apply (Text.dropEndWhile (· == '\r') text) := by
  obtain ⟨cut, whole, dropped⟩ := Text.drop_end_while_split (· == '\r') text
  have last := apply_last frame _ (Text.drop_end_while_last (· == '\r') text)
  rw [Text.drop_end_while_further _ _ _ fun c member => beq_iff_eq.mpr (returns c member)]
  conv_lhs => rw [whole]
  rw [apply_returns frame _ cut fun c member => beq_iff_eq.mp (dropped c member),
    Text.drop_end_while_further _ _ _ dropped, Text.drop_end_while_kept _ _ last]

def ofReturns : Frame := ⟨[], ['\r'], by simp, by simp⟩

def ofIndentation (lead : Text) (indents : ∀ c ∈ lead, CharClass.isIndent c = true) : Frame := ⟨lead, [], indents, by simp⟩

end Frame

namespace Text

def withReturns (text : Text) : Text := text.flatMap fun c => if c = '\n' then ['\r', '\n'] else [c]

def indented (lead text : Text) : Text := joined ['\n'] ((pieces '\n' text).map (lead ++ ·))

theorem returns_apply (text : Text) : Frame.ofReturns.apply text = withReturns text := rfl

theorem indentation_apply (lead : Text) (indents : ∀ c ∈ lead, CharClass.isIndent c = true) (text : Text) :
    (Frame.ofIndentation lead indents).apply text = indented lead text := by
  have lines (parts : List Text) : (Frame.ofIndentation lead indents).lines parts = parts.map (lead ++ ·) := by
    induction parts with
    | nil => rfl
    | cons part parts ih =>
        by_cases last : parts = []
        · subst last
          rfl
        · rw [Frame.lines_cons _ part parts last, ih, List.map_cons, Frame.line, Frame.ofIndentation, List.append_nil]
  rw [indented, ← lines, ← Frame.pieces_apply, joined_pieces]

end Text

end BlockSearch
