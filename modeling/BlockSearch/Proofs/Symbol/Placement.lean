import BlockSearch.Proofs.Text.Pieces
import BlockSearch.Symbol.Occurrence

set_option autoImplicit false

namespace BlockSearch

def Text.lastLine (text : Text) : Text := (text.reverse.takeWhile (· != '\n')).reverse

theorem Text.last_line_append (text : Text) (c : Char) :
    Text.lastLine (text ++ [c]) = if c = '\n' then [] else Text.lastLine text ++ [c] := by
  by_cases newline : c = '\n' <;> simp [Text.lastLine, newline]

theorem Text.last_cons (c : Char) (text : Text) (previous : Option Char) :
    (c :: text).getLast?.or previous = text.getLast?.or (some c) := by
  cases text <;> simp [List.getLast?_cons]

theorem Text.size_pos (text : Text) (some : text ≠ []) : 0 < Text.size text := by
  cases text with
  | nil => exact absurd rfl some
  | cons c rest =>
      have wide := Char.utf8Size_pos c
      rw [Text.size_cons]
      omega

namespace Symbol

namespace Place

theorem after_append (place : Place) (a b : Text) : place.after (a ++ b) = (place.after a).after b :=
  List.foldl_append

theorem after_offset (place : Place) (text : Text) : (place.after text).offset = place.offset + Text.size text := by
  induction text generalizing place with
  | nil => rfl
  | cons c rest ih =>
      have step : (place.pass c).offset = place.offset + c.utf8Size := by unfold pass; split <;> rfl
      change ((place.pass c).after rest).offset = _
      rw [ih, step, Text.size_cons, Nat.add_assoc]

theorem after_line (place : Place) (text : Text) : (place.after text).line = place.line + text.count '\n' := by
  induction text generalizing place with
  | nil => rfl
  | cons c rest ih =>
      change ((place.pass c).after rest).line = _
      rw [ih]
      by_cases newline : c = '\n'
      · simp only [pass, newline, if_true, List.count_cons_self]
        omega
      · simp only [pass, if_neg newline, List.count_cons_of_ne newline]

theorem after_last (place : Place) (text : Text) (c : Char) :
    place.after (text ++ [c]) = (place.after text).pass c := by
  rw [after_append]
  rfl

theorem after_previous (place : Place) (text : Text) :
    (place.after text).previous = text.getLast?.or place.previous := by
  cases text using List.reverseRecOn with
  | nil => rfl
  | append_singleton text c =>
      rw [after_last, List.getLast?_concat]
      unfold pass
      split <;> rfl

theorem after_column (place : Place) (text : Text) (free : '\n' ∉ text) :
    (place.after text).column = place.column + Text.size text := by
  induction text generalizing place with
  | nil => rfl
  | cons c rest ih =>
      obtain ⟨other, behind⟩ := not_or.mp (fun member => free (List.mem_cons.mpr member))
      change ((place.pass c).after rest).column = _
      rw [ih _ behind, pass, if_neg (Ne.symm other), Text.size_cons, Nat.add_assoc]

theorem start_after_column (text : Text) : (start.after text).column = Text.size (Text.lastLine text) := by
  induction text using List.reverseRecOn with
  | nil => rfl
  | append_singleton text c ih =>
      rw [after_last, Text.last_line_append]
      by_cases newline : c = '\n'
      · simp [pass, newline, Text.size]
      · simp only [pass, if_neg newline, ih, Text.size_append]
        simp [Text.size]

theorem start_after_previous (text : Text) : (start.after text).previous = text.getLast? := by
  rw [after_previous, start, Option.or_none]

end Place

structure Occurrence.Stands (content before : Text) (occurrence : Occurrence) : Prop where
  whole : content = before ++ (occurrence.symbol ++ occurrence.rest)
  place : occurrence.place = Place.start.after before

namespace Occurrence.Stands

variable {content before : Text} {occurrence : Occurrence} (stands : occurrence.Stands content before)
include stands

theorem line : occurrence.place.line = before.count '\n' := by
  rw [stands.place, Place.after_line]
  exact Nat.zero_add _

theorem offset : occurrence.place.offset = Text.size before := by
  rw [stands.place, Place.after_offset]
  exact Nat.zero_add _

theorem column : occurrence.place.column = Text.size (Text.lastLine before) := by
  rw [stands.place, Place.start_after_column]

theorem previous : occurrence.place.previous = before.getLast? := by
  rw [stands.place, Place.start_after_previous]

end Occurrence.Stands

-- The second occurrence is reached from the first one across its symbol, and by one character at least.
def Occurrence.Before (a b : Occurrence) : Prop :=
  ∃ way, b.place = a.place.after (a.symbol ++ way) ∧ a.symbol ++ way ≠ []

theorem Occurrence.Before.line {a b : Occurrence} (before : a.Before b) : a.place.line ≤ b.place.line := by
  obtain ⟨way, reached, -⟩ := before
  rw [reached, Place.after_line]
  omega

theorem Occurrence.Before.offset {a b : Occurrence} (before : a.Before b) : a.place.offset < b.place.offset := by
  obtain ⟨way, reached, moved⟩ := before
  have wide := Text.size_pos _ moved
  rw [reached, Place.after_offset]
  omega

theorem occurrences_from_placed (busy : Nat) (place : Place) (takings : Takings) (text : Text) (found : Occurrence)
    (member : found ∈ occurrencesFrom busy place takings text) :
    ∃ skipped, text = skipped ++ (found.symbol ++ found.rest) ∧ found.place = place.after skipped ∧
      busy ≤ skipped.length := by
  induction text generalizing busy place takings with
  | nil =>
      cases busy with
      | zero =>
          simp only [occurrencesFrom] at member
          split at member
          · rw [List.mem_singleton.mp member]
            exact ⟨[], rfl, rfl, Nat.le_refl 0⟩
          · simp at member
      | succ busy => simp [occurrencesFrom] at member
  | cons c others ih =>
      -- An occurrence further on has passed one character more.
      have further (left : Nat) (behind : found ∈ occurrencesFrom left (place.pass c) takings.tail others) :
          ∃ skipped, c :: others = skipped ++ (found.symbol ++ found.rest) ∧ found.place = place.after skipped ∧
            left + 1 ≤ skipped.length := by
        obtain ⟨skipped, cut, reached, passed⟩ := ih left (place.pass c) takings.tail behind
        exact ⟨c :: skipped, by rw [cut, List.cons_append], reached, Nat.succ_le_succ passed⟩
      cases busy with
      | succ busy => exact further busy member
      | zero =>
          simp only [occurrencesFrom] at member
          split at member
          · rcases List.mem_cons.mp member with here | behind
            · rw [here]
              exact ⟨[], by simp, rfl, Nat.le_refl 0⟩
            · obtain ⟨skipped, cut, reached, -⟩ := further _ behind
              exact ⟨skipped, cut, reached, Nat.zero_le _⟩
          · obtain ⟨skipped, cut, reached, -⟩ := further _ member
            exact ⟨skipped, cut, reached, Nat.zero_le _⟩

theorem occurrences_from_ordered (busy : Nat) (place : Place) (takings : Takings) (text : Text) :
    (occurrencesFrom busy place takings text).Pairwise Occurrence.Before := by
  induction text generalizing busy place takings with
  | nil =>
      cases busy with
      | zero =>
          simp only [occurrencesFrom]
          split <;> simp
      | succ busy => simp [occurrencesFrom]
  | cons c others ih =>
      cases busy with
      | succ busy => exact ih busy (place.pass c) takings.tail
      | zero =>
          simp only [occurrencesFrom]
          split
          · rename_i taken _
            refine List.pairwise_cons.mpr ⟨?_, ih _ _ _⟩
            intro later member
            obtain ⟨skipped, cut, reached, passed⟩ := occurrences_from_placed _ _ _ _ later member
            -- What was taken lies in the characters that stayed busy, so the way leads across all of it.
            have inside : (c :: others).take taken = (c :: skipped).take taken := by
              rw [cut, ← List.cons_append, List.take_append_of_le_length]
              rw [List.length_cons]
              omega
            refine ⟨(c :: skipped).drop taken, ?_, ?_⟩
            · rw [inside, List.take_append_drop, reached]
              rfl
            · simp [inside, List.take_append_drop]
          · exact ih 0 (place.pass c) takings.tail

theorem Pattern.occurrences_stand (pattern : Pattern) (content : Text) (found : Occurrence)
    (member : found ∈ pattern.occurrences content) : ∃ before, found.Stands content before := by
  obtain ⟨before, whole, place, -⟩ := occurrences_from_placed _ _ _ _ found member
  exact ⟨before, whole, place⟩

theorem Pattern.occurrences_ordered (pattern : Pattern) (content : Text) :
    (pattern.occurrences content).Pairwise Occurrence.Before :=
  occurrences_from_ordered _ _ _ _

end Symbol

end BlockSearch
