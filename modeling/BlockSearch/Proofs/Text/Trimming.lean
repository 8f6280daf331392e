import BlockSearch.Proofs.Text.Pieces
import Mathlib.Data.List.TakeWhile

set_option autoImplicit false

namespace BlockSearch.Text

theorem drop_end_while_split (p : Char → Bool) (text : Text) :
    ∃ cut, text = dropEndWhile p text ++ cut ∧ ∀ c ∈ cut, p c = true := by
  refine ⟨(text.reverse.takeWhile p).reverse, ?_, ?_⟩
  · rw [dropEndWhile, ← List.reverse_append, List.takeWhile_append_dropWhile, List.reverse_reverse]
  · intro c member
    exact List.mem_takeWhile_imp (List.mem_reverse.mp member)

theorem drop_end_while_append (p : Char → Bool) (front back : Text) (kept : ∃ c ∈ back, p c = false) :
    dropEndWhile p (front ++ back) = front ++ dropEndWhile p back := by
  have stopped : (back.reverse.dropWhile p).isEmpty = false := by
    obtain ⟨c, member, refused⟩ := kept
    cases rest : back.reverse.dropWhile p with
    | cons d others => rfl
    | nil =>
        have all := List.dropWhile_eq_nil_iff.mp rest c (List.mem_reverse.mpr member)
        simp [refused] at all
  rw [dropEndWhile, List.reverse_append, List.dropWhile_append, stopped]
  simp [dropEndWhile]

theorem drop_end_while_cons (p : Char → Bool) (c : Char) (text : Text) (kept : p c = false) :
    dropEndWhile p (c :: text) = c :: dropEndWhile p text := by
  rw [dropEndWhile, List.reverse_cons, List.dropWhile_append]
  split
  · rename_i dropped
    simp [dropEndWhile, kept, List.isEmpty_iff.mp dropped]
  · simp [dropEndWhile]

theorem drop_end_while_further (p : Char → Bool) (text cut : Text) (dropped : ∀ c ∈ cut, p c = true) :
    dropEndWhile p (text ++ cut) = dropEndWhile p text := by
  have passes : ∀ c ∈ cut.reverse, p c = true := fun c member => dropped c (List.mem_reverse.mp member)
  rw [dropEndWhile, List.reverse_append, List.dropWhile_append_of_pos passes, ← dropEndWhile]

theorem drop_end_while_kept (p : Char → Bool) (text : Text) (kept : ∀ c ∈ text.getLast?, p c = false) :
    dropEndWhile p text = text := by
  cases text using List.reverseRecOn with
  | nil => rfl
  | append_singleton front c =>
      have stays : p c = false := kept c List.getLast?_concat
      simp [dropEndWhile, stays]

theorem drop_end_while_last (p : Char → Bool) (text : Text) : ∀ c ∈ (dropEndWhile p text).getLast?, p c = false := by
  intro c last
  rw [dropEndWhile, List.getLast?_reverse] at last
  have stopped := List.head?_dropWhile_not p text.reverse
  rw [Option.mem_def.mp last] at stopped
  simpa using stopped

theorem without_returns (text : Text) :
    ∃ cut, text = dropEndWhile (· == '\r') text ++ cut ∧ (∀ c ∈ cut, (c == '\r') = true) ∧
      (dropEndWhile (· == '\r') text).count '\n' = text.count '\n' ∧
      size (dropEndWhile (· == '\r') text) ≤ size text := by
  obtain ⟨cut, split, returns⟩ := drop_end_while_split (· == '\r') text
  have noNewline : cut.count '\n' = 0 := by
    apply List.count_eq_zero.mpr
    intro member
    have same := returns _ member
    simp at same
  refine ⟨cut, split, returns, ?_, ?_⟩
  · conv_rhs => rw [split]
    rw [List.count_append, noNewline, Nat.add_zero]
  · conv_rhs => rw [split]
    rw [size_append]
    exact Nat.le_add_right _ _

theorem trim_blanks (front text back : Text) (before : ∀ c ∈ front, CharClass.isBlank c = true)
    (behind : ∀ c ∈ back, CharClass.isBlank c = true) : trim (front ++ (text ++ back)) = trim text := by
  rw [trim, trimStart, List.dropWhile_append_of_pos before, List.dropWhile_append, trim, trimStart]
  split
  · rename_i blank
    have none : back.dropWhile CharClass.isBlank = [] := List.dropWhile_eq_nil_iff.mpr behind
    rw [none, List.isEmpty_iff.mp blank]
  · rw [trimEnd, drop_end_while_further _ _ _ behind, trimEnd]

theorem trimmed_head (text : Text) (trimmed : trim text = text) : ∀ c ∈ text.head?, CharClass.isBlank c = false := by
  intro c first
  obtain ⟨cut, whole, -⟩ := drop_end_while_split CharClass.isBlank (trimStart text)
  have same : trimStart text = text ++ cut := whole.trans (congrArg (· ++ cut) trimmed)
  obtain ⟨rest, rfl⟩ := List.head?_eq_some_iff.mp (Option.mem_def.mp first)
  have stopped := List.head?_dropWhile_not CharClass.isBlank (c :: rest)
  rw [← trimStart, same] at stopped
  simpa using stopped

end BlockSearch.Text
