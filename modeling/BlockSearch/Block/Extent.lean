import BlockSearch.Block.Basic
import BlockSearch.Symbol.Occurrence

/-!
The lines of a block, found by indentation alone. A heading opens a brace behind the symbol or at the beginning of the
next line. The body is every line deeper than the heading, blank lines between them included; a closing brace at the
indentation of the heading ends the block. The lines are numbered from zero.
-/

set_option autoImplicit false

namespace BlockSearch.Block

open BlockSearch.Symbol (Occurrence)

structure Extent where
  first : Nat
  last : Nat
  text : Text
deriving DecidableEq, Repr

def isDeeper (indentation line : Text) : Bool :=
  match Text.afterLead indentation line with
  | some (c :: _) => CharClass.isIndent c
  | _ => false

-- Lines to the last deeper one, before the first that is neither blank nor deeper.
def bodyLength (indentation : Text) : List Text → Nat
  | [] => 0
  | line :: below =>
      if Text.isBlankLine line then
        match bodyLength indentation below with
        | 0 => 0
        | length + 1 => length + 2
      else if isDeeper indentation line then bodyLength indentation below + 1
      else 0

def closes (indentation line : Text) : Bool :=
  Text.indentation line == indentation && (line.drop indentation.length).head? == some '}'

-- Blank lines before a closing line, if the first line that is not blank closes.
def blanksToClosing (indentation : Text) : List Text → Option Nat
  | [] => none
  | line :: below =>
      if Text.isBlankLine line then (blanksToClosing indentation below).map (· + 1)
      else if closes indentation line then some 0
      else none

def headingLast (occurrence : Occurrence) : Nat := occurrence.place.line + occurrence.symbol.count '\n'

def headingRest (occurrence : Occurrence) : Text := occurrence.rest.takeWhile (· != '\n')

def opensBrace (line : Text) : Bool := (Text.trimStart line).head? == some '{'

def openingLine (lines : List Text) (occurrence : Occurrence) : Option Nat :=
  if (headingRest occurrence).contains '{' then some (headingLast occurrence)
  else match lines[headingLast occurrence + 1]? with
    | some line => if opensBrace line then some (headingLast occurrence + 1) else none
    | none => none

def commentsAbove (lines : List Text) (floor line : Nat) : Nat :=
  (((lines.take line).drop floor).reverse.takeWhile isCommentLine).length

def extentText (lines : List Text) (first last : Nat) (closing : Option Text) : Text :=
  Text.joined ['\n'] (((lines.take (last + 1)).drop first) ++ closing.toList)

def Extent.grow (lines : List Text) (floor : Nat) (occurrence : Occurrence) : Option Extent :=
  (openingLine lines occurrence).map fun opening =>
    let line := occurrence.place.line
    let indentation := Text.indentation (lines.getD line [])
    let last := opening + bodyLength indentation (lines.drop (opening + 1))
    let first := line - commentsAbove lines floor line
    match blanksToClosing indentation (lines.drop (last + 1)) with
    | some blanks =>
        ⟨first, last + blanks + 1, extentText lines first (last + blanks) (some (indentation ++ ['}']))⟩
    | none => ⟨first, last, extentText lines first last none⟩

end BlockSearch.Block
