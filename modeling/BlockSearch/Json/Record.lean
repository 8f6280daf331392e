import BlockSearch.Json.Reader

set_option autoImplicit false

namespace BlockSearch.Json

def toNatural : Json → Option Nat
  | .number ⟨false, whole, none, none⟩ => if whole < Decimal.wordLimit then some whole else none
  | _ => none

def toBool : Json → Option Bool
  | .bool value => some value
  | _ => none

def toText : Json → Option Text
  | .string text => text
  | _ => none

def toTexts : Json → Option (List Text)
  | .array items => items.mapM toText
  | _ => none

def toOptionalNatural : Json → Option (Option Nat)
  | .null => some none
  | value => (toNatural value).map some

structure Field (α : Type) where
  names : List Text
  required : Bool
  put : α → Json → Option α

def fieldOf {α : Type} (fields : List (Field α)) (name : Text) : Option Nat :=
  fields.findIdx? fun field => field.names.contains name

-- Puts the members into the record; `seen` holds the numbers of the fields that came before.
def putMembers {α : Type} (fields : List (Field α)) :
    List Nat → α → List (Option Text × Json) → Option (List Nat × α)
  | seen, record, [] => some (seen, record)
  | _, _, (none, _) :: _ => none
  | seen, record, (some name, value) :: members =>
      match fieldOf fields name with
      | none => putMembers fields seen record members
      | some index =>
          if seen.contains index then none
          else match fields[index]?.bind fun field => field.put record value with
            | some changed => putMembers fields (index :: seen) changed members
            | none => none

def complete {α : Type} (fields : List (Field α)) (seen : List Nat) : Bool :=
  fields.zipIdx.all fun (field, index) => !field.required || seen.contains index

def putItems {α : Type} : List (Field α) → α → List Json → Option α
  | fields, record, [] => if fields.any Field.required then none else some record
  | [], _, _ :: _ => none
  | field :: fields, record, value :: values =>
      match field.put record value with
      | some changed => putItems fields changed values
      | none => none

def toRecord {α : Type} (fields : List (Field α)) (record : α) : Json → Option α
  | .object members =>
      match putMembers fields [] record members with
      | some (seen, changed) => if complete fields seen then some changed else none
      | none => none
  | .array items => putItems fields record items
  | _ => none

end BlockSearch.Json
