import BlockSearch.Proofs.Text.Frame

set_option autoImplicit false

namespace BlockSearch.Text

theorem ended_cons (line : Text) (below : List Text) (some : below ≠ []) :
    shownLines.ended (line :: below) = (beforeTail ['\r'] line).getD line :: shownLines.ended below := by
  cases below with
  | nil => exact absurd rfl some
  | cons next below => rfl

theorem before_no_return (line : Text) (plain : '\r' ∉ line) : beforeTail ['\r'] line = none := by
  apply Option.eq_none_iff_forall_ne_some.mpr
  intro front found
  have whole := before_tail_eq ['\r'] line front found
  exact plain (by simp [whole])

theorem shown_lines_terminated (parts : List Text) (free : ∀ part ∈ parts, '\n' ∉ part) (rest : Text) :
    shownLines (terminated '\n' parts ++ rest) =
      parts.map (fun line => (beforeTail ['\r'] line).getD line) ++ shownLines rest := by
  rw [shownLines, pieces_terminated_append '\n' parts free, shownLines]
  clear free
  induction parts with
  | nil => rfl
  | cons part parts ih =>
      have some : parts ++ pieces '\n' rest ≠ [] := by simp [pieces_ne_nil]
      rw [List.cons_append, ended_cons _ _ some, ih, List.map_cons, List.cons_append]

theorem shown_lines_ne_nil (text : Text) (some : text ≠ []) : shownLines text ≠ [] := by
  rw [shownLines]
  cases cut : pieces '\n' text with
  | nil => exact absurd cut (pieces_ne_nil '\n' text)
  | cons first below =>
      by_cases last : below = []
      · subst last
        obtain ⟨rfl, -⟩ := (pieces_single_iff '\n' text first).mp cut
        rw [shownLines.ended, if_neg (by simpa using some)]
        exact List.cons_ne_nil _ _
      · rw [ended_cons first below last]
        exact List.cons_ne_nil _ _

theorem shown_lines_returns (text : Text) (plain : '\r' ∉ text) : shownLines (withReturns text) = shownLines text := by
  have ended (parts : List Text) (plain : ∀ part ∈ parts, '\r' ∉ part) :
      shownLines.ended (Frame.ofReturns.lines parts) = shownLines.ended parts := by
    induction parts with
    | nil => rfl
    | cons part parts ih =>
        by_cases last : parts = []
        · subst last
          rfl
        · have behind := ih fun other later => plain other (List.mem_cons_of_mem _ later)
          have line : Frame.ofReturns.line part = part ++ ['\r'] := rfl
          rw [Frame.lines_cons _ part parts last, ended_cons _ _ (Frame.lines_ne_nil _ parts last), behind,
            ended_cons part parts last, line, before_tail_append, before_no_return part (plain part List.mem_cons_self)]
          rfl
  rw [shownLines, ← returns_apply, Frame.pieces_apply, shownLines]
  exact ended _ fun part present within => plain (mem_of_piece '\n' '\r' text part present within)

end BlockSearch.Text
