import BlockSearch.Json.Quoted
import BlockSearch.Text.Decimal

set_option autoImplicit false

namespace BlockSearch

namespace Json

structure Number where
  negative : Bool
  whole : Nat
  fraction : Option Text
  exponent : Option Text
deriving DecidableEq, Repr

end Json

inductive Json where
  | null
  | bool (value : Bool)
  | number (value : Json.Number)
  -- Nothing, where the string is no text.
  | string (text : Option Text)
  | array (items : List Json)
  | object (members : List (Option Text × Json))

namespace Json

def natural (n : Nat) : Json := .number ⟨false, n, none, none⟩

def text (text : Text) : Json := .string (some text)

def member (key : Text) (value : Json) : Option Text × Json := (some key, value)

def Number.write (number : Number) : Text :=
  (if number.negative then ['-'] else []) ++ Text.ofNat number.whole
    ++ (match number.fraction with
        | some digits => '.' :: digits
        | none => [])
    ++ (match number.exponent with
        | some digits => 'e' :: digits
        | none => [])

def writeString (text : Option Text) : Text := Quoted.write (text.getD [])

inductive Spacing where
  | dense
  | lines (depth : Nat)
deriving DecidableEq, Repr

namespace Spacing

def deeper : Spacing → Spacing
  | .dense => .dense
  | .lines depth => .lines (depth + 1)

def lineStart : Spacing → Text
  | .dense => []
  | .lines depth => '\n' :: List.replicate (2 * depth) ' '

def afterColon : Spacing → Text
  | .dense => []
  | .lines _ => [' ']

end Spacing

mutual
def write (spacing : Spacing) : Json → Text
  | .null => "null".toList
  | .bool true => "true".toList
  | .bool false => "false".toList
  | .number value => value.write
  | .string text => writeString text
  | .array [] => ['[', ']']
  | .array (item :: items) =>
      '[' :: spacing.deeper.lineStart ++ write spacing.deeper item ++ writeItems spacing.deeper items
        ++ spacing.lineStart ++ [']']
  | .object [] => ['{', '}']
  | .object ((key, value) :: members) =>
      '{' :: spacing.deeper.lineStart ++ writeString key ++ ':' :: spacing.afterColon
        ++ write spacing.deeper value ++ writeMembers spacing.deeper members ++ spacing.lineStart ++ ['}']

def writeItems (spacing : Spacing) : List Json → Text
  | [] => []
  | item :: items => ',' :: spacing.lineStart ++ write spacing item ++ writeItems spacing items

def writeMembers (spacing : Spacing) : List (Option Text × Json) → Text
  | [] => []
  | (key, value) :: members =>
      ',' :: spacing.lineStart ++ writeString key ++ ':' :: spacing.afterColon
        ++ write spacing value ++ writeMembers spacing members
end

end Json

end BlockSearch
