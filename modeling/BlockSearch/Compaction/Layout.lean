import BlockSearch.Compaction.Delimited

set_option autoImplicit false

namespace BlockSearch.Compaction

def tabWidth : Nat := 4

structure Line where
  width : Nat
  body : Text
deriving DecidableEq, Repr

def columns (indentation : Text) : Nat :=
  indentation.foldr (fun c width => (if c == '\t' then tabWidth else 1) + width) 0

def isLineComment (line : Text) : Bool :=
  let start := Text.trimStart line
  Text.startsWith ['/', '/'] start || start == ['#'] || Text.startsWith ['#', ' '] start

def Line.measure (line : Text) : Line :=
  ⟨columns (Text.indentation line), line.dropWhile CharClass.isIndent⟩

def keptLines (stripped : Text) : List Line :=
  (((Text.shownLines stripped).map Text.trimEnd).filter fun line =>
    !line.isEmpty && !isLineComment line).map Line.measure

-- The indentation of a whole text: the width of its least indented line, and the smallest step above that, if any line
-- is deeper.
structure Scale where
  base : Nat
  step : Option Nat
deriving DecidableEq, Repr

namespace Scale

def baseOf (lines : List Line) : Nat := ((lines.map Line.width).min?).getD 0

def stepOf (base : Nat) (lines : List Line) : Option Nat :=
  ((lines.map fun line => line.width - base).filter (0 < ·)).min?

def ofLines (lines : List Line) : Scale :=
  let base := baseOf lines
  ⟨base, stepOf base lines⟩

def depth (scale : Scale) (line : Line) : Nat :=
  match scale.step with
  | some step => (line.width - scale.base) / step
  | none => 0

end Scale

def Line.laidOut (scale : Scale) (line : Line) : Text := List.replicate (scale.depth line) '\t' ++ line.body

def layOut (lines : List Line) : Text :=
  let scale := Scale.ofLines lines
  Text.joined ['\n'] (lines.map (Line.laidOut scale))

def compact (text : Text) : Text := layOut (keptLines (withoutDelimited text))

end BlockSearch.Compaction
