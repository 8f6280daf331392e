import BlockSearch.Block.Ranking

set_option autoImplicit false

namespace BlockSearch

-- The findings are those shown, best first; `total` counts them before the cut.
structure Outcome where
  symbols : List Text
  findings : List Finding
  total : Nat
  filesScanned : Nat
deriving DecidableEq, Repr

def Outcome.isTruncated (outcome : Outcome) : Bool := decide (outcome.findings.length < outcome.total)

end BlockSearch
