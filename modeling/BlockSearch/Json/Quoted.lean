import BlockSearch.Text.Basic

set_option autoImplicit false

namespace BlockSearch.Json

namespace Quoted

inductive Unit where
  | char (c : Char)
  | half (code : Nat)
deriving DecidableEq, Repr

def hexValue (c : Char) : Option Nat :=
  if '0' ≤ c ∧ c ≤ '9' then some (c.toNat - '0'.toNat)
  else if 'a' ≤ c ∧ c ≤ 'f' then some (c.toNat - 'a'.toNat + 10)
  else if 'A' ≤ c ∧ c ≤ 'F' then some (c.toNat - 'A'.toNat + 10)
  else none

def isHalf (code : Nat) : Bool := decide (0xD800 ≤ code) && decide (code < 0xE000)

def numbered (a b c d : Char) : Option Unit :=
  match hexValue a, hexValue b, hexValue c, hexValue d with
  | some a, some b, some c, some d =>
      let code := 4096 * a + 256 * b + 16 * c + d
      some (if isHalf code then .half code else .char (Char.ofNat code))
  | _, _, _, _ => none

def escaped (letter : Char) : Option Char :=
  if letter = '\x22' ∨ letter = '\x5c' ∨ letter = '/' then some letter
  else if letter = 'b' then some '\x08'
  else if letter = 'f' then some '\x0c'
  else if letter = 'n' then some '\n'
  else if letter = 'r' then some '\r'
  else if letter = 't' then some '\t'
  else none

def read : Text → Option (List Unit × Text)
  | [] => none
  | '\x22' :: rest => some ([], rest)
  | '\x5c' :: 'u' :: a :: b :: c :: d :: rest =>
      match numbered a b c d, read rest with
      | some unit, some (units, left) => some (unit :: units, left)
      | _, _ => none
  | '\x5c' :: letter :: rest =>
      match escaped letter, read rest with
      | some c, some (units, left) => some (.char c :: units, left)
      | _, _ => none
  | c :: rest =>
      if c.toNat < 0x20 then none
      else (read rest).map fun (units, left) => (.char c :: units, left)

def pair (high low : Nat) : Char := Char.ofNat (0x10000 + (high - 0xD800) * 0x400 + (low - 0xDC00))

-- The text of the units, if every half has its other half right behind it.
def toText : List Unit → Option Text
  | [] => some []
  | .char c :: rest => (toText rest).map (c :: ·)
  | .half high :: .half low :: rest =>
      if high < 0xDC00 ∧ 0xDC00 ≤ low then (toText rest).map (pair high low :: ·) else none
  | .half _ :: _ => none

def hexDigit (n : Nat) : Char := if n < 10 then Char.ofNat (n + '0'.toNat) else Char.ofNat (n - 10 + 'a'.toNat)

def writeChar (c : Char) : Text :=
  if c = '\x22' ∨ c = '\x5c' then ['\x5c', c]
  else if c = '\x08' then ['\x5c', 'b']
  else if c = '\x0c' then ['\x5c', 'f']
  else if c = '\n' then ['\x5c', 'n']
  else if c = '\r' then ['\x5c', 'r']
  else if c = '\t' then ['\x5c', 't']
  else if c.toNat < 0x20 then ['\x5c', 'u', '0', '0', hexDigit (c.toNat / 16), hexDigit (c.toNat % 16)]
  else [c]

def write (text : Text) : Text := '\x22' :: text.flatMap writeChar ++ ['\x22']

end Quoted

end BlockSearch.Json
