import BlockSearch.Block.Finder
import BlockSearch.Budget
import BlockSearch.Discovery.Entries

set_option autoImplicit false

namespace BlockSearch

structure Scanned where
  file : FileEntry
  findings : List Finding
deriving DecidableEq, Repr

structure Matcher where
  pattern : Symbol.Pattern
  limits : Block.Limits
deriving DecidableEq, Repr

namespace Matcher

def findings (matcher : Matcher) (file : FileEntry) (content : Text) : List Finding :=
  (Block.find matcher.limits matcher.pattern content).map fun block =>
    ⟨file, block, Block.score block.text file.path⟩

def scan (matcher : Matcher) (tree : FileTree) (file : FileEntry) : Option Scanned :=
  (tree.text? file.location).map fun content => ⟨file, matcher.findings file content⟩

end Matcher

abbrev Stream := List (Except WalkFault FileEntry)

namespace Stream

-- A file that cannot be read as text is passed over, but it counts against the budget.
def next (scan : FileEntry → Option Scanned) (budget : Budget) :
    Stream → Option (Except WalkFault Scanned) × Stream × Budget
  | [] => (none, [], budget)
  | item :: rest =>
      if budget.cancelled then (none, item :: rest, budget)
      else match item with
        | .error fault => (some (.error fault), rest, budget)
        | .ok file =>
            match budget.claim with
            | (false, budget) => (none, [], budget)
            | (true, budget) =>
                match scan file with
                | some scanned => (some (.ok scanned), rest, budget)
                | none => next scan budget rest

end Stream

end BlockSearch
