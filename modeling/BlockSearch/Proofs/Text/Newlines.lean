import BlockSearch.Proofs.Text.Ascii
import BlockSearch.Text.Slice

set_option autoImplicit false

namespace BlockSearch.Text

theorem utf8_newline (rest : Text) : utf8 ('\n' :: rest) = newlineByte :: utf8 rest := rfl

theorem newline_not_in_char (c : Char) (other : c ≠ '\n') : newlineByte ∉ String.utf8EncodeChar c := by
  by_cases short : c.utf8Size = 1
  · rw [String.utf8EncodeChar_eq_singleton short, List.mem_singleton]
    exact fun same => other (narrow_injective '\n' rfl c short same).symm
  · exact narrow_not_wide '\n' rfl c short

theorem utf8_count_newline (text : Text) : (utf8 text).count newlineByte = text.count '\n' := by
  induction text with
  | nil => rfl
  | cons c rest ih =>
      by_cases newline : c = '\n'
      · rw [newline, utf8_newline, List.count_cons_self, List.count_cons_self, ih]
      · rw [utf8_cons, List.count_append, List.count_eq_zero.mpr (newline_not_in_char c newline), ih, Nat.zero_add,
          List.count_cons_of_ne newline]

theorem newline_byte_mem_iff (text : Text) : newlineByte ∈ utf8 text ↔ '\n' ∈ text := by
  rw [← List.count_pos_iff, utf8_count_newline, List.count_pos_iff]

theorem first_byte_divided (front behind : Bytes) (byte : UInt8) (free : byte ∉ front) :
    (front ++ byte :: behind).idxOf? byte = some front.length := by
  have none := List.idxOf?_eq_none_iff.mpr free
  rw [List.idxOf?] at none ⊢
  rw [List.findIdx?_append, none, List.findIdx?_cons, if_pos (beq_self_eq_true byte)]
  simp

theorem first_newline_none_iff (text : Text) : firstNewline (utf8 text) = none ↔ '\n' ∉ text := by
  rw [firstNewline, List.idxOf?_eq_none_iff, newline_byte_mem_iff]

theorem first_newline_divided (front behind : Text) (free : '\n' ∉ front) :
    firstNewline (utf8 (front ++ '\n' :: behind)) = some (size front) := by
  rw [← newline_byte_mem_iff] at free
  rw [firstNewline, utf8_append, utf8_newline, first_byte_divided _ _ _ free, utf8_length]

theorem last_newline_none (text : Text) (free : '\n' ∉ text) : lastNewline (utf8 text) = none := by
  rw [← newline_byte_mem_iff, ← List.mem_reverse] at free
  rw [lastNewline, List.idxOf?_eq_none_iff.mpr free, Option.map_none]

theorem last_newline_divided (above front : Text) (free : '\n' ∉ front) :
    lastNewline (utf8 (above ++ '\n' :: front)) = some (size above) := by
  rw [← newline_byte_mem_iff, ← List.mem_reverse] at free
  have bytes : (utf8 (above ++ '\n' :: front)).reverse =
      (utf8 front).reverse ++ newlineByte :: (utf8 above).reverse := by
    rw [utf8_append, utf8_newline, List.reverse_append, List.reverse_cons, List.append_assoc, List.singleton_append]
  have length : (utf8 (above ++ '\n' :: front)).length = size above + (1 + size front) := by
    rw [utf8_length, size_append, size_cons]
    rfl
  rw [lastNewline, bytes, first_byte_divided _ _ _ free, Option.map_some, length, List.length_reverse, utf8_length]
  congr 1
  omega

end BlockSearch.Text
