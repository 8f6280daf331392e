import BlockSearch.Json.Basic

set_option autoImplicit false

namespace BlockSearch.Json

def isBlank (c : Char) : Bool := c == ' ' || c == '\t' || c == '\n' || c == '\r'

def skipBlanks (text : Text) : Text := text.dropWhile isBlank

def readDigits (text : Text) : Option (Text × Text) :=
  match text.span Char.isDigit with
  | ([], _) => none
  | (digits, rest) => some (digits, rest)

def readWhole (text : Text) : Option (Nat × Text) :=
  match readDigits text with
  | some ('0' :: _ :: _, _) => none
  | some (digits, rest) => (Decimal.value? digits).map fun value => (value, rest)
  | none => none

def readFraction : Text → Option (Option Text × Text)
  | '.' :: rest => (readDigits rest).map fun (digits, left) => (some digits, left)
  | text => some (none, text)

def readSign : Text → Text × Text
  | '+' :: rest => (['+'], rest)
  | '-' :: rest => (['-'], rest)
  | text => ([], text)

def readExponent : Text → Option (Option Text × Text)
  | c :: rest =>
      if c = 'e' ∨ c = 'E' then
        (readDigits (readSign rest).2).map fun (digits, left) => (some ((readSign rest).1 ++ digits), left)
      else some (none, c :: rest)
  | [] => some (none, [])

def readUnsigned (negative : Bool) (text : Text) : Option (Json × Text) := do
  let (whole, text) ← readWhole text
  let (fraction, text) ← readFraction text
  let (exponent, text) ← readExponent text
  return (.number ⟨negative, whole, fraction, exponent⟩, text)

def readNumber : Text → Option (Json × Text)
  | '-' :: rest => readUnsigned true rest
  | text => readUnsigned false text

def readScalar (text : Text) : Option (Json × Text) :=
  if let some rest := Text.afterLead "null".toList text then some (.null, rest)
  else if let some rest := Text.afterLead "true".toList text then some (.bool true, rest)
  else if let some rest := Text.afterLead "false".toList text then some (.bool false, rest)
  else readNumber text

def readString (text : Text) : Option (Option Text × Text) :=
  (Quoted.read text).map fun (units, rest) => (Quoted.toText units, rest)

mutual
def readValue : Nat → Text → Option (Json × Text)
  | 0, _ => none
  | fuel + 1, text =>
      match skipBlanks text with
      | '[' :: rest =>
          match skipBlanks rest with
          | ']' :: rest => some (.array [], rest)
          | rest => (readItems fuel rest).map fun (items, left) => (.array items, left)
      | '{' :: rest =>
          match skipBlanks rest with
          | '}' :: rest => some (.object [], rest)
          | rest => (readMembers fuel rest).map fun (members, left) => (.object members, left)
      | '\x22' :: rest => (readString rest).map fun (text, left) => (.string text, left)
      | rest => readScalar rest

def readItems : Nat → Text → Option (List Json × Text)
  | 0, _ => none
  | fuel + 1, text =>
      match readValue fuel text with
      | none => none
      | some (item, rest) =>
          match skipBlanks rest with
          | ',' :: rest => (readItems fuel rest).map fun (items, left) => (item :: items, left)
          | ']' :: rest => some ([item], rest)
          | _ => none

def readMembers : Nat → Text → Option (List (Option Text × Json) × Text)
  | 0, _ => none
  | fuel + 1, text =>
      match skipBlanks text with
      | '\x22' :: rest =>
          match readString rest with
          | none => none
          | some (key, rest) =>
              match skipBlanks rest with
              | ':' :: rest =>
                  match readValue fuel rest with
                  | none => none
                  | some (value, rest) =>
                      match skipBlanks rest with
                      | ',' :: rest =>
                          (readMembers fuel rest).map fun (members, left) => ((key, value) :: members, left)
                      | '}' :: rest => some ([(key, value)], rest)
                      | _ => none
              | _ => none
      | _ => none
end

-- Each step but every other one takes a character, so twice the length is enough of them.
def read (text : Text) : Option Json :=
  match readValue (2 * text.length + 2) text with
  | some (value, rest) => if (skipBlanks rest).isEmpty then some value else none
  | none => none

end BlockSearch.Json
