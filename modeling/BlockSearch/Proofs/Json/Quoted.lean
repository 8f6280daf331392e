import BlockSearch.Json.Quoted

set_option autoImplicit false

namespace BlockSearch.Json.Quoted

theorem hex_value_digit (n : Nat) (small : n < 16) : hexValue (hexDigit n) = some n := by
  have all : ∀ n < 16, hexValue (hexDigit n) = some n := by decide
  exact all n small

theorem numbered_control (c : Char) (control : c.toNat < 0x20) :
    numbered '0' '0' (hexDigit (c.toNat / 16)) (hexDigit (c.toNat % 16)) = some (.char c) := by
  have zero : hexValue '0' = some 0 := rfl
  have code : 4096 * 0 + 256 * 0 + 16 * (c.toNat / 16) + c.toNat % 16 = c.toNat := by omega
  have whole : isHalf c.toNat = false := by
    simp only [isHalf, Bool.and_eq_false_iff, decide_eq_false_iff_not]
    omega
  simp only [numbered, zero, hex_value_digit _ (show c.toNat / 16 < 16 by omega),
    hex_value_digit _ (show c.toNat % 16 < 16 by omega), code, whole]
  simp

theorem read_number (a b c d : Char) (unit : Unit) (rest : Text) (given : numbered a b c d = some unit) :
    read ('\x5c' :: 'u' :: a :: b :: c :: d :: rest) = (read rest).map fun (units, left) => (unit :: units, left) := by
  rw [read, given]
  cases read rest <;> rfl

theorem read_escaped (letter c : Char) (rest : Text) (other : letter ≠ 'u') (given : escaped letter = some c) :
    read ('\x5c' :: letter :: rest) = (read rest).map fun (units, left) => (.char c :: units, left) := by
  rw [read, given]
  · cases read rest <;> rfl
  · rintro _ _ _ _ _ rfl
    exact absurd rfl other

theorem read_plain (c : Char) (rest : Text) (noQuote : c ≠ '\x22') (noEscape : c ≠ '\x5c') (shown : ¬ c.toNat < 0x20) :
    read (c :: rest) = (read rest).map fun (units, left) => (.char c :: units, left) := by
  rw [read, if_neg shown]
  · exact noQuote
  · rintro _ _ _ _ _ rfl
    exact absurd rfl noEscape
  · rintro _ _ rfl
    exact absurd rfl noEscape

theorem read_char (c : Char) (rest : Text) :
    read (writeChar c ++ rest) = (read rest).map fun (units, left) => (.char c :: units, left) := by
  unfold writeChar
  split
  · rename_i special
    refine read_escaped c c rest ?_ ?_
    · rcases special with rfl | rfl <;> decide
    · rcases special with rfl | rfl <;> decide
  · rename_i plain
    rw [not_or] at plain
    split
    · rename_i same
      exact same ▸ read_escaped 'b' _ rest (by decide) rfl
    split
    · rename_i same
      exact same ▸ read_escaped 'f' _ rest (by decide) rfl
    split
    · rename_i same
      exact same ▸ read_escaped 'n' _ rest (by decide) rfl
    split
    · rename_i same
      exact same ▸ read_escaped 'r' _ rest (by decide) rfl
    split
    · rename_i same
      exact same ▸ read_escaped 't' _ rest (by decide) rfl
    split
    · rename_i control
      exact read_number _ _ _ _ _ rest (numbered_control c control)
    · rename_i shown
      exact read_plain c rest plain.1 plain.2 shown

theorem read_written (text rest : Text) :
    read (text.flatMap writeChar ++ '\x22' :: rest) = some (text.map .char, rest) := by
  induction text with
  | nil => rfl
  | cons c text ih =>
      rw [List.flatMap_cons, List.append_assoc, read_char, ih]
      rfl

theorem text_of_chars (text : Text) : toText (text.map .char) = some text := by
  induction text with
  | nil => rfl
  | cons c text ih => rw [List.map_cons, toText, ih, Option.map_some]

end BlockSearch.Json.Quoted
