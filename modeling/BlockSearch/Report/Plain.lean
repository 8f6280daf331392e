import BlockSearch.Compaction.Layout
import BlockSearch.Report.Outcome

set_option autoImplicit false

namespace BlockSearch.Report

structure Detail where
  debug : Bool
  compact : Bool
deriving DecidableEq, Repr

def lineRange (block : Block) : Text :=
  Text.ofNat block.firstLine ++ ':' :: Text.ofNat block.lastLine

def remark (finding : Finding) : Text :=
  " (score: ".toList ++ Text.ofInt finding.score ++ ", symbol: ".toList ++ finding.block.symbol
    ++ ", offset: ".toList ++ Text.ofNat finding.block.offset
    ++ ", order: ".toList ++ Text.ofNat finding.file.order ++ [')']

def header (detail : Detail) (finding : Finding) : Text :=
  lineRange finding.block ++ ':' :: finding.file.path ++ if detail.debug then remark finding else []

def body (detail : Detail) (finding : Finding) : Text :=
  if detail.compact then Compaction.compact finding.block.text else finding.block.text

def trailer (shown total : Nat) : Option Text :=
  if shown < total then
    some ("[Showing ".toList ++ Text.ofNat shown ++ " of ".toList ++ Text.ofNat total
      ++ " matches. Narrow the symbols or raise the limit to see more.]".toList)
  else none

def entry (detail : Detail) (finding : Finding) : Text :=
  header detail finding ++ '\n' :: body detail finding

def text (detail : Detail) (outcome : Outcome) : Text :=
  Text.joined ['\n', '\n']
    (outcome.findings.map (entry detail) ++ (trailer outcome.findings.length outcome.total).toList)

end BlockSearch.Report
