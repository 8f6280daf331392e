import BlockSearch.Block.Ranking
import BlockSearch.Discovery.Walk

set_option autoImplicit false

namespace BlockSearch

structure WalkLimits where
  maxDepth : Nat
  maxFileSize : Nat
  respectIgnoreFiles : Bool
deriving DecidableEq, Repr

-- Rule files above a walk that could not be read; never an empty list.
structure WalkFault where
  faults : List IgnoreFile.Fault
deriving DecidableEq, Repr

def WalkFault.message (fault : WalkFault) : Text := Text.joined ['\n'] (fault.faults.map IgnoreFile.Fault.message)

structure Candidate where
  path : Text
  size : Nat
  named : Bool
deriving DecidableEq, Repr

namespace WalkTarget

def levels (target : WalkTarget) (limits : WalkLimits) : Nat :=
  match target.depth with
  | some depth => min depth limits.maxDepth
  | none => limits.maxDepth

def wants (target : WalkTarget) (file : WalkedFile) : Bool :=
  target.glob.isMatch (target.lead ++ Path.slashed file.way)

-- A single dash is the path of the standard input, which no walk goes through.
def isStandardInput (path : Text) : Bool := Path.components path == [.name ['-']]

def faults (scope : IgnoreFile.Scope) : List WalkFault :=
  match scope.faultsAbove with
  | [] => []
  | faults => [⟨faults⟩]

def candidates (tree : FileTree) (root : Text) (pruned : List Glob) (limits : WalkLimits) (target : WalkTarget) :
    List (Except WalkFault Candidate) :=
  match (tree.directory? target.base).filter fun _ => !isStandardInput target.base with
  | none => []
  | some location =>
      let scope := if limits.respectIgnoreFiles then some (IgnoreFile.Scope.ofBase tree target.base location) else none
      let files := (Visit.start tree target.base scope).files ⟨tree, root, pruned⟩ location.current
        (target.levels limits)
      (scope.toList.flatMap faults).map .error ++ (files.filter target.wants).map fun file =>
        .ok ⟨file.path, file.size, false⟩

end WalkTarget

def Target.candidates (tree : FileTree) (root : Text) (pruned : List Glob) (limits : WalkLimits) :
    Target → List (Except WalkFault Candidate)
  | .file path =>
      match tree.file? path with
      | some content => [.ok ⟨path, content.length, true⟩]
      | none => []
  | .walk target => target.candidates tree root pruned limits

structure Admission where
  seen : List (List Path.Component)
  next : Nat
deriving DecidableEq, Repr

namespace Admission

def start : Admission := ⟨[], 0⟩

def isExcluded (plan : Plan) (candidate : Candidate) : Bool :=
  !candidate.named && Glob.anyMatch plan.excluded (Path.slashed (Path.shown plan.root candidate.path))

def consider (plan : Plan) (maxFileSize : Nat) (admission : Admission) (candidate : Candidate) :
    Option FileEntry × Admission :=
  let key := Path.components candidate.path
  if isExcluded plan candidate || decide (maxFileSize < candidate.size) || admission.seen.contains key then
    (none, admission)
  else
    (some ⟨Path.shown plan.root candidate.path, candidate.path, candidate.size, admission.next⟩,
      ⟨key :: admission.seen, admission.next + 1⟩)

def entries (plan : Plan) (maxFileSize : Nat) (admission : Admission) :
    List (Except WalkFault Candidate) → List (Except WalkFault FileEntry)
  | [] => []
  | .error fault :: rest => .error fault :: entries plan maxFileSize admission rest
  | .ok candidate :: rest =>
      match consider plan maxFileSize admission candidate with
      | (some entry, admission) => .ok entry :: entries plan maxFileSize admission rest
      | (none, admission) => entries plan maxFileSize admission rest

end Admission

namespace Plan

def candidates (tree : FileTree) (limits : WalkLimits) (plan : Plan) : List (Except WalkFault Candidate) :=
  plan.targets.flatMap (Target.candidates tree plan.root plan.pruned limits)

def discover (tree : FileTree) (limits : WalkLimits) (plan : Plan) : List (Except WalkFault FileEntry) :=
  Admission.start.entries plan limits.maxFileSize (plan.candidates tree limits)

end Plan

end BlockSearch
