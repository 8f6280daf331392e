import BlockSearch.Block.Extent

set_option autoImplicit false

namespace BlockSearch.Block

open BlockSearch.Symbol (Pattern Occurrence)

-- Both in bytes: of the block before carriage returns at its end are cut off, and of the text before the symbol.
structure Limits where
  maxSize : Nat
  maxColumn : Nat
deriving DecidableEq, Repr

-- A symbol behind one of these is an argument, an index, a property or quoted.
def rejectedBefore : Text := ['(', '[', '.', '\x27', '\x22', '\x60']

def rejectedAfter : Text := ['.', '\x27', '\x22', '\x60', ')', ']']

def hasCleanEdges (occurrence : Occurrence) : Bool :=
  !occurrence.place.previous.any rejectedBefore.contains && !occurrence.rest.head?.any rejectedAfter.contains

def ofExtent (occurrence : Occurrence) (extent : Extent) : Block :=
  { firstLine := extent.first + 1
    lastLine := extent.last + 1
    offset := occurrence.place.offset
    symbol := occurrence.symbol
    text := Text.dropEndWhile (· == '\r') extent.text }

def extentAt (limits : Limits) (lines : List Text) (floor : Nat) (occurrence : Occurrence) : Option Extent :=
  if occurrence.place.line < floor ∨ limits.maxColumn < occurrence.place.column
      ∨ hasCleanEdges occurrence = false then none
  else (Extent.grow lines floor occurrence).filter fun extent => decide (Text.size extent.text ≤ limits.maxSize)

def collect (limits : Limits) (lines : List Text) (floor : Nat) : List Occurrence → List Block
  | [] => []
  | occurrence :: rest =>
      match extentAt limits lines floor occurrence with
      | some extent => ofExtent occurrence extent :: collect limits lines (extent.last + 1) rest
      | none => collect limits lines floor rest

-- A content of one line, which is mostly a minified one, holds no block.
def find (limits : Limits) (pattern : Pattern) (content : Text) : List Block :=
  if content.contains '\n' then
    collect limits (Text.pieces '\n' content) 0 (pattern.occurrences content)
  else []

end BlockSearch.Block
