import BlockSearch.Block.Score

set_option autoImplicit false

namespace BlockSearch

structure FileEntry where
  path : Text
  location : Text
  size : Nat
  order : Nat
deriving DecidableEq, Repr

structure Finding where
  file : FileEntry
  block : Block
  score : Int
deriving DecidableEq, Repr

namespace Finding

def before (a b : Finding) : Bool :=
  if a.score = b.score then
    if a.file.order = b.file.order then decide (a.block.offset ≤ b.block.offset)
    else decide (a.file.order < b.file.order)
  else decide (b.score < a.score)

def ranked (findings : List Finding) : List Finding := findings.mergeSort before

def best (limit : Nat) (findings : List Finding) : List Finding × Nat :=
  ((ranked findings).take limit, findings.length)

end Finding

end BlockSearch
