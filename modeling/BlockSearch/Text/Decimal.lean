import BlockSearch.Text.Basic

set_option autoImplicit false

namespace BlockSearch.Decimal

def wordLimit : Nat := 18446744073709551616

def digitValue (c : Char) : Option Nat := if c.isDigit then some (c.toNat - '0'.toNat) else none

def valueFrom (value : Nat) : Text → Option Nat
  | [] => some value
  | c :: rest =>
      match digitValue c with
      | some digit => valueFrom (10 * value + digit) rest
      | none => none

def value? (digits : Text) : Option Nat := if digits.isEmpty then none else valueFrom 0 digits

def word? (text : Text) : Option Nat :=
  (value? ((Text.afterLead ['+'] text).getD text)).filter (· < wordLimit)

def saturate (value : Nat) : Nat := min value (wordLimit - 1)

end BlockSearch.Decimal
