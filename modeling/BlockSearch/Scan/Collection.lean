import BlockSearch.Scan.FileStream

set_option autoImplicit false

namespace BlockSearch

structure Collection where
  findings : List Finding
  filesScanned : Nat
deriving DecidableEq, Repr

namespace Collection

def empty : Collection := ⟨[], 0⟩

def add (collection : Collection) (budget : Budget) (scanned : Scanned) : Bool × Collection × Budget :=
  let filesScanned := collection.filesScanned + 1
  if scanned.findings.isEmpty then (false, ⟨collection.findings, filesScanned⟩, budget)
  else
    let taken := scanned.findings.take budget.remaining
    let recorded := budget.record taken.length
    (recorded.1, ⟨collection.findings ++ taken, filesScanned⟩, recorded.2)

def gather (collection : Collection) (budget : Budget) :
    List (Except WalkFault Scanned) → Except WalkFault Collection × Budget
  | [] => (.ok collection, budget)
  | .error fault :: rest =>
      if collection.findings.isEmpty then (.error fault, budget) else gather collection budget rest
  | .ok scanned :: rest =>
      match collection.add budget scanned with
      | (true, collection, budget) => (.ok collection, budget)
      | (false, collection, budget) => gather collection budget rest

def drain (scan : FileEntry → Option Scanned) (collection : Collection) (budget : Budget)
    (stream : FileStream) : Except WalkFault Collection × Budget :=
  match _given : stream.next scan budget with
  | (none, _, budget) => (.ok collection, budget)
  | (some (.error fault), rest, budget) =>
      if collection.findings.isEmpty then (.error fault, budget) else drain scan collection budget rest
  | (some (.ok scanned), rest, budget) =>
      match collection.add budget scanned with
      | (true, collection, budget) => (.ok collection, budget)
      | (false, collection, budget) => drain scan collection budget rest
termination_by stream.left
decreasing_by
  all_goals exact FileStream.next_left scan _ stream _ rest _ _given

end Collection

end BlockSearch
