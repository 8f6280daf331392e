import BlockSearch.Report.Plain

set_option autoImplicit false

namespace BlockSearch.Report

inductive Style where
  | range
  | path
  | remark
  | trailer
deriving DecidableEq, Repr

def rendition (code : Char) : Text := ['\x1b', '[', code, 'm']

def resetMark : Text := rendition '0'

def colour (code : Char) : Text := ['\x1b', '[', '3', code, 'm']

-- A style begins by leaving the one before it: green, bold magenta, dimmed, and cyan.
def Style.mark : Style → Text
  | .range => resetMark ++ colour '2'
  | .path => resetMark ++ rendition '1' ++ colour '5'
  | .remark => resetMark ++ rendition '2'
  | .trailer => resetMark ++ colour '6'

structure Piece where
  style : Option Style
  text : Text
deriving DecidableEq, Repr

namespace Piece

def plain (text : Text) : Piece := ⟨none, text⟩

def styled (style : Style) (text : Text) : Piece := ⟨some style, text⟩

def written (piece : Piece) : Text :=
  match piece.style with
  | some style => style.mark ++ piece.text ++ resetMark
  | none => piece.text

end Piece

def headerPieces (detail : Detail) (finding : Finding) : List Piece :=
  [.styled .range (lineRange finding.block), .plain [':'], .styled .path finding.file.path]
    ++ if detail.debug then [.styled .remark (remark finding)] else []

def entryPieces (detail : Detail) (finding : Finding) : List Piece :=
  headerPieces detail finding ++ [.plain ['\n'], .plain (body detail finding)]

def gap : Piece := .plain ['\n', '\n']

def trailerPieces (outcome : Outcome) : List Piece :=
  match trailer outcome.findings.length outcome.total with
  | some note => [gap, .styled .trailer note]
  | none => []

-- A gap stands between entries and before the trailer, also when there is no entry.
def piecesOf (detail : Detail) (outcome : Outcome) : List Piece :=
  [gap].intercalate (outcome.findings.map (entryPieces detail)) ++ trailerPieces outcome ++ [.plain ['\n']]

def withoutMarks (pieces : List Piece) : Text := pieces.flatMap Piece.text

def withMarks (pieces : List Piece) : Text := pieces.flatMap Piece.written

def written (coloured : Bool) (detail : Detail) (outcome : Outcome) : Text :=
  let pieces := piecesOf detail outcome
  if coloured then withMarks pieces else withoutMarks pieces

end BlockSearch.Report
