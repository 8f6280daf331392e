import BlockSearch.Text.Decimal

set_option autoImplicit false

namespace BlockSearch

namespace Text

theorem of_nat_digits (n : Nat) : ofNat n = Nat.toDigits 10 n := Nat.toList_repr

theorem of_nat_is_digit (n : Nat) : ∀ c ∈ ofNat n, c.isDigit = true := by
  intro c member
  rw [of_nat_digits] at member
  exact Nat.isDigit_of_mem_toDigits (by decide) (by decide) member

theorem of_nat_ne_nil (n : Nat) : ofNat n ≠ [] := of_nat_digits n ▸ Nat.toDigits_ne_nil

theorem of_nat_front (n : Nat) : ∃ c rest, ofNat n = c :: rest ∧ c.isDigit = true := by
  obtain ⟨c, rest, digits⟩ := List.exists_cons_of_ne_nil (of_nat_ne_nil n)
  exact ⟨c, rest, digits, of_nat_is_digit n c (digits ▸ List.mem_cons_self)⟩

theorem of_nat_head (n : Nat) (positive : 0 < n) : (ofNat n).head? ≠ some '0' := by
  induction n using Nat.strongRecOn with
  | ind n ih =>
      rw [of_nat_digits]
      by_cases small : n < 10
      · rw [Nat.toDigits_of_lt_base small]
        have digits : ∀ digit < 10, 0 < digit → Nat.digitChar digit ≠ '0' := by decide
        simpa using digits n small positive
      · have front := ih (n / 10) (by omega) (by omega)
        rw [of_nat_digits] at front
        rw [Nat.toDigits_of_base_le (by decide) (Nat.le_of_not_lt small), List.head?_append]
        obtain ⟨c, rest, digits⟩ := List.exists_cons_of_ne_nil (Nat.toDigits_ne_nil (n := n / 10) (b := 10))
        rw [digits] at front ⊢
        exact front

theorem of_nat_no_lead (n : Nat) (c : Char) (rest : Text) : ofNat n ≠ '0' :: c :: rest := by
  intro digits
  by_cases zero : n = 0
  · subst zero
    rw [of_nat_digits, Nat.toDigits_zero] at digits
    cases digits
  · exact of_nat_head n (Nat.pos_of_ne_zero zero) (by rw [digits]; rfl)

end Text

namespace Decimal

theorem value_from_digits (digits : Text) (value : Nat) (all : ∀ c ∈ digits, c.isDigit = true) :
    valueFrom value digits = some (Nat.ofDigitChars 10 digits value) := by
  induction digits generalizing value with
  | nil => rfl
  | cons c rest ih =>
      have digit : digitValue c = some (c.toNat - '0'.toNat) := if_pos (all c List.mem_cons_self)
      rw [valueFrom, digit, Nat.ofDigitChars_cons]
      exact ih _ fun other later => all other (List.mem_cons_of_mem _ later)

theorem value_of_nat (n : Nat) : value? (Text.ofNat n) = some n := by
  have some : (Text.ofNat n).isEmpty = false := by simpa using Text.of_nat_ne_nil n
  rw [value?, some, if_neg Bool.false_ne_true, value_from_digits _ _ (Text.of_nat_is_digit n), Text.of_nat_digits,
    Nat.ofDigitChars_ten_toDigits]

end Decimal

end BlockSearch
