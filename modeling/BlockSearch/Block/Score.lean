import BlockSearch.Block.Basic
import BlockSearch.FilePattern.Extension

set_option autoImplicit false

namespace BlockSearch.Block

def declarationWords : List Text :=
  ["class", "interface", "type", "function", "enum", "namespace", "module", "model", "declare", "abstract", "const",
   "extends", "implements"].map String.toList

def headingLine (text : Text) : Text :=
  ((Text.shownLines text).find? fun line => !isCommentLine line).getD []

def isNameChar (c : Char) : Bool := CharClass.isAlphanumeric c || c == '_' || c == '$'

def declarationCount (line : Text) : Nat :=
  ((Text.piecesBy (fun c => !isNameChar c) line).filter declarationWords.contains).length

def pathDepth (path : Text) : Nat :=
  ((Text.pieces '/' path).filter fun name => name != [] && name != ['.'] && name != ['.', '.']).length - 1

def score (text path : Text) : Int :=
  2 * (Text.pieces '\n' text).length + 1000 * declarationCount (headingLine text) - 10 * pathDepth path
    + if FilePattern.isDeclarationFile path then 100 else 0

end BlockSearch.Block
