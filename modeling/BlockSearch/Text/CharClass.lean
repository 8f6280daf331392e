import BlockSearch.Text.Property

set_option autoImplicit false

namespace BlockSearch.CharClass

open CharRange (covers alphabetic mark decimalDigit otherNumber connector joinControl whiteSpace laterAlphanumeric)

def isBlank (c : Char) : Bool := covers whiteSpace c.toNat

def isAlphanumeric (c : Char) : Bool :=
  covers alphabetic c.toNat || covers decimalDigit c.toNat || covers otherNumber c.toNat
    || covers laterAlphanumeric c.toNat

-- Words are made of the characters of Unicode 16 only, where letters and numbers are those of Unicode 17.
def isWord (c : Char) : Bool :=
  covers alphabetic c.toNat || covers mark c.toNat || covers decimalDigit c.toNat
    || covers connector c.toNat || covers joinControl c.toNat

def isIndent (c : Char) : Bool := c == ' ' || c == '\t'

def isAsciiAlphanumeric (c : Char) : Bool := c.isAlphanum

theorem indent_is_blank (c : Char) (indent : isIndent c = true) : isBlank c = true := by
  simp only [isIndent, Bool.or_eq_true, beq_iff_eq] at indent
  rcases indent with rfl | rfl <;> decide

theorem indent_is_no_word (c : Char) (indent : isIndent c = true) : isWord c = false := by
  simp only [isIndent, Bool.or_eq_true, beq_iff_eq] at indent
  rcases indent with rfl | rfl <;> decide

end BlockSearch.CharClass
