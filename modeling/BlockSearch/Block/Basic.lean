import BlockSearch.Text.Basic

set_option autoImplicit false

namespace BlockSearch

-- Lines are counted from one, both ends included; `offset` is where the symbol occurs, in bytes of the content.
structure Block where
  firstLine : Nat
  lastLine : Nat
  offset : Nat
  symbol : Text
  text : Text
deriving DecidableEq, Repr

namespace Block

-- A line of a comment, by its first characters. With a brace on it a `#` begins a selector and no comment.
def isCommentLine (line : Text) : Bool :=
  let content := Text.trim line
  Text.startsWith ['/', '/'] content || Text.startsWith ['/', '*'] content || Text.startsWith ['*'] content
    || (Text.startsWith ['#'] content && !content.contains '{')

end Block

end BlockSearch
