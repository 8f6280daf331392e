import BlockSearch.Text.Basic

set_option autoImplicit false

namespace BlockSearch.Text

theorem marked_msb (byte marker : UInt8) (high : marker.toBitVec.msb = true) :
    (byte ||| marker).toBitVec.msb = true := by
  rw [UInt8.toBitVec_or, BitVec.msb_or, high, Bool.or_true]

theorem encode_wide (c : Char) (wide : c.utf8Size ≠ 1) :
    ∀ byte ∈ String.utf8EncodeChar c, byte.toBitVec.msb = true := by
  rcases Char.utf8Size_eq c with one | two | three | four
  · exact absurd one wide
  · rw [String.utf8EncodeChar_eq_cons_cons two]
    simp only [List.forall_mem_cons, List.not_mem_nil, false_implies, implies_true, and_true]
    exact ⟨marked_msb _ _ rfl, marked_msb _ _ rfl⟩
  · rw [String.utf8EncodeChar_eq_cons_cons_cons three]
    simp only [List.forall_mem_cons, List.not_mem_nil, false_implies, implies_true, and_true]
    exact ⟨marked_msb _ _ rfl, marked_msb _ _ rfl, marked_msb _ _ rfl⟩
  · rw [String.utf8EncodeChar_eq_cons_cons_cons_cons four]
    simp only [List.forall_mem_cons, List.not_mem_nil, false_implies, implies_true, and_true]
    exact ⟨marked_msb _ _ rfl, marked_msb _ _ rfl, marked_msb _ _ rfl, marked_msb _ _ rfl⟩

section Narrow

variable (c : Char) (narrow : c.utf8Size = 1)
include narrow

theorem narrow_byte : c.val.toUInt8.toNat = c.toNat := by
  have ascii := Char.utf8Size_eq_one_iff.mp narrow
  rw [UInt32.le_iff_toNat_le] at ascii
  have small : c.val.toNat < 256 := Nat.lt_of_le_of_lt ascii (by decide)
  rw [UInt32.toNat_toUInt8]
  exact Nat.mod_eq_of_lt small

theorem narrow_low : c.val.toUInt8.toBitVec.msb = false := by
  have ascii := Char.utf8Size_eq_one_iff.mp narrow
  rw [UInt32.le_iff_toNat_le] at ascii
  rw [BitVec.msb_eq_false_iff_two_mul_lt, UInt8.toNat_toBitVec, narrow_byte c narrow]
  exact Nat.lt_of_le_of_lt (Nat.mul_le_mul_left 2 ascii) (by decide)

theorem narrow_not_wide (other : Char) (wide : other.utf8Size ≠ 1) : c.val.toUInt8 ∉ String.utf8EncodeChar other := by
  intro member
  have high := encode_wide other wide _ member
  rw [narrow_low c narrow] at high
  exact Bool.false_ne_true high

theorem narrow_injective (other : Char) (short : other.utf8Size = 1)
    (same : c.val.toUInt8 = other.val.toUInt8) : c = other := by
  rw [← Char.toNat_inj, ← narrow_byte c narrow, ← narrow_byte other short, same]

end Narrow

theorem utf8_cons (c : Char) (rest : Text) : utf8 (c :: rest) = String.utf8EncodeChar c ++ utf8 rest := rfl

theorem utf8_append (a b : Text) : utf8 (a ++ b) = utf8 a ++ utf8 b := List.flatMap_append

theorem utf8_eq_nil (text : Text) (none : utf8 text = []) : text = [] := by
  cases text with
  | nil => rfl
  | cons c rest =>
      have bytes := List.append_eq_nil_iff.mp none
      have size := congrArg List.length bytes.1
      rw [String.length_utf8EncodeChar] at size
      exact absurd size (Nat.ne_of_gt c.utf8Size_pos)

theorem cut_at_char (c : Char) (narrow : c.utf8Size = 1) (text : Text) (front back : Bytes)
    (cut : utf8 text = front ++ c.val.toUInt8 :: back) :
    ∃ a b, text = a ++ c :: b ∧ utf8 a = front ∧ utf8 b = back := by
  induction text generalizing front with
  | nil => simp [utf8] at cut
  | cons d rest ih =>
      rw [utf8_cons] at cut
      rcases List.append_eq_append_iff.mp cut with ⟨more, rfl, behind⟩ | ⟨more, inside, behind⟩
      · obtain ⟨a, b, rfl, rfl, rfl⟩ := ih more behind
        exact ⟨d :: a, b, rfl, rfl, rfl⟩
      · cases more with
        | nil =>
            obtain ⟨a, b, rfl, none, rfl⟩ := ih [] behind.symm
            rw [List.append_nil] at inside
            exact ⟨d :: a, b, rfl, by rw [utf8_cons, none, List.append_nil, inside], rfl⟩
        | cons byte more =>
            obtain ⟨rfl, whole⟩ := List.cons.inj behind
            by_cases short : d.utf8Size = 1
            · rw [String.utf8EncodeChar_eq_singleton short] at inside
              obtain ⟨rfl, single⟩ := List.singleton_eq_append_iff.mp inside |>.resolve_right (by simp)
              obtain ⟨same, rfl⟩ := List.cons.inj single
              exact ⟨[], rest, by rw [narrow_injective c narrow d short same, List.nil_append], rfl, whole.symm⟩
            · exact absurd (inside ▸ by simp) (narrow_not_wide c narrow d short)

section Word

variable (word : Text) (narrow : ∀ c ∈ word, c.utf8Size = 1)
include narrow

theorem word_leads (text : Text) (back : Bytes) (cut : utf8 text = utf8 word ++ back) :
    ∃ rest, text = word ++ rest ∧ utf8 rest = back := by
  induction word generalizing text with
  | nil => exact ⟨text, rfl, cut⟩
  | cons c word ih =>
      have short := narrow c List.mem_cons_self
      rw [utf8_cons, String.utf8EncodeChar_eq_singleton short] at cut
      obtain ⟨a, b, rfl, none, behind⟩ := cut_at_char c short text [] _ cut
      obtain ⟨rest, rfl, last⟩ := ih (fun d member => narrow d (List.mem_cons_of_mem _ member)) b behind
      exact ⟨rest, by rw [utf8_eq_nil a none]; rfl, last⟩

theorem word_inside (some : word ≠ []) (text : Text) (front back : Bytes)
    (cut : utf8 text = front ++ (utf8 word ++ back)) :
    ∃ a b, text = a ++ (word ++ b) ∧ utf8 a = front ∧ utf8 b = back := by
  obtain ⟨c, behind, rfl⟩ := List.exists_cons_of_ne_nil some
  have short := narrow c List.mem_cons_self
  rw [utf8_cons, String.utf8EncodeChar_eq_singleton short] at cut
  obtain ⟨a, b, rfl, same, rest⟩ := cut_at_char c short text front _ cut
  obtain ⟨last, rfl, here⟩ := word_leads behind (fun d member => narrow d (List.mem_cons_of_mem _ member)) b _ rest
  exact ⟨a, last, rfl, same, here⟩

end Word

end BlockSearch.Text
