import BlockSearch.Symbol.Takings

set_option autoImplicit false

namespace BlockSearch.Symbol

structure Pattern where
  symbols : List Text
  shapes : List Shape
deriving DecidableEq, Repr

def Pattern.ofSymbols (symbols : List Text) : Pattern := ⟨symbols, symbols.map Shape.ofSymbol⟩

def Pattern.read (pattern : Pattern) : Reader := fun previous text =>
  match pattern.shapes with
  | [] => some ([], text)
  | shapes => shapes.findSome? fun shape => shape.read previous text

-- A place in a content. Offset and column are counted in bytes, lines and columns from zero.
structure Place where
  offset : Nat
  line : Nat
  column : Nat
  previous : Option Char
deriving DecidableEq, Repr

namespace Place

def start : Place := ⟨0, 0, 0, none⟩

def pass (place : Place) (c : Char) : Place :=
  if c = '\n' then ⟨place.offset + c.utf8Size, place.line + 1, 0, some c⟩
  else ⟨place.offset + c.utf8Size, place.line, place.column + c.utf8Size, some c⟩

def after (place : Place) (text : Text) : Place := text.foldl pass place

end Place

structure Occurrence where
  place : Place
  symbol : Text
  rest : Text
deriving DecidableEq, Repr

def Pattern.takings (pattern : Pattern) (previous : Option Char) (text : Text) : Takings :=
  match pattern.shapes with
  | [] => Takings.ofReader (fun _ text => some ([], text)) previous text
  | shapes => Takings.shapes previous text shapes

theorem pattern_takings_eq (pattern : Pattern) (previous : Option Char) (text : Text) :
    pattern.takings previous text = Takings.ofReader pattern.read previous text := by
  unfold Pattern.takings
  split
  · rename_i none
    congr 1
    funext previous text
    simp [Pattern.read, none]
  · rename_i several
    rw [Takings.shapes_of_reader]
    congr 1
    funext previous text
    unfold Pattern.read
    split
    · rename_i none
      exact absurd none several
    · rfl

-- Goes on from a place with what is taken from there on; so many characters still belong to the last occurrence.
def occurrencesFrom (busy : Nat) (place : Place) (takings : Takings) (text : Text) : List Occurrence :=
  match busy, text with
  | 0, [] =>
      match takings.first with
      | some _ => [⟨place, [], []⟩]
      | none => []
  | 0, c :: others =>
      match takings.first with
      | some taken =>
          ⟨place, (c :: others).take taken, (c :: others).drop taken⟩
            :: occurrencesFrom (taken - 1) (place.pass c) takings.tail others
      | none => occurrencesFrom 0 (place.pass c) takings.tail others
  | _ + 1, [] => []
  | busy + 1, c :: others => occurrencesFrom busy (place.pass c) takings.tail others

def Pattern.occurrences (pattern : Pattern) (content : Text) : List Occurrence :=
  occurrencesFrom 0 .start (pattern.takings none content) content

end BlockSearch.Symbol
