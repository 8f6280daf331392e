import BlockSearch.Exclusion
import BlockSearch.FileTree.Location
import BlockSearch.FileTree.Path
import BlockSearch.Glob.Matching
import BlockSearch.Glob.Reader

/-!
What is to be searched: for each pattern a file that it names, or a directory to walk and a glob that the files have
to match. The walk begins in the directory that the segments before the first special character name, and goes no
deeper than the pattern, unless a segment of it is a double star.
-/

set_option autoImplicit false

namespace BlockSearch

-- A directory to walk. `lead` is the part of the pattern that names it, and `depth` the levels the pattern has below
-- it, where it does not reach to every depth.
structure WalkTarget where
  base : Text
  lead : Text
  depth : Option Nat
  glob : Glob

inductive Target where
  -- A file that is named; exclusions do not apply to it.
  | file (path : Text)
  | walk (target : WalkTarget)

structure Plan where
  root : Text
  targets : List Target
  excluded : List Glob
  pruned : List Glob

structure GlobFault where
  source : Text
  cause : Glob.Cause
deriving DecidableEq, Repr

def GlobFault.message (fault : GlobFault) : Text := fault.cause.describe fault.source

namespace Plan

-- An alternative may be empty in a pattern; a bracket has to be closed.
def dialect : Glob.Dialect := ⟨true, false⟩

def readGlob (source : Text) : Except GlobFault Glob :=
  match Glob.read dialect source with
  | .ok glob => .ok glob
  | .error cause => .error ⟨source, cause⟩

def gather {α β : Type} (f : α → Except GlobFault (Option β)) : List α → Except GlobFault (List β)
  | [] => .ok []
  | item :: items =>
      match f item with
      | .error fault => .error fault
      | .ok made =>
          match gather f items with
          | .error fault => .error fault
          | .ok others => .ok (made.toList ++ others)

def literalSegments (pattern : Text) : List Text :=
  (Text.pieces '/' pattern).takeWhile fun segment => !FilePattern.hasGlobChars segment

def leadOf (pattern : Text) : Text := (literalSegments pattern).flatMap fun segment => segment ++ ['/']

def baseOf (root pattern : Text) : Text :=
  if (leadOf pattern).isEmpty then root else Path.join root (leadOf pattern)

def depthOf (pattern : Text) : Option Nat :=
  let segments := Text.pieces '/' pattern
  if segments.contains ['*', '*'] then none else some (segments.length - (literalSegments pattern).length)

def walkTarget (tree : FileTree) (root pattern : Text) : Except GlobFault (Option Target) :=
  match tree.directory? (baseOf root pattern) with
  | none => .ok none
  | some _ =>
      match readGlob pattern with
      | .ok glob => .ok (some (.walk ⟨baseOf root pattern, leadOf pattern, depthOf pattern, glob⟩))
      | .error fault => .error fault

def widened (directory : Text) : Text :=
  Text.dropEndWhile (· == '/') directory ++ "/**/*.".toList ++ FilePattern.extensionClass

def target (tree : FileTree) (root mapped : Text) : Except GlobFault (Option Target) :=
  let pattern := Path.undotted mapped
  if FilePattern.hasGlobChars pattern then walkTarget tree root pattern
  else
    match tree.find? (Path.join root pattern) with
    | some (.file _) => .ok (some (.file (Path.join root pattern)))
    | some (.directory _) => walkTarget tree root (widened pattern)
    | none => .ok none

def unmarked (fragment : Text) : Text := fragment.dropWhile (· == '!')

-- The globs of an exclusion: for files, and for directories where it covers all below one.
def exclusionGlobs (fragment : Text) : Except GlobFault (Option (Glob × Option Glob)) :=
  match readGlob (unmarked fragment) with
  | .error fault => .error fault
  | .ok files =>
      match Exclusion.directoryStem (unmarked fragment) with
      | none => .ok (some (files, none))
      | some stem =>
          match readGlob stem with
          | .error fault => .error fault
          | .ok directories => .ok (some (files, some directories))

def make (tree : FileTree) (root : Text) (patterns fragments : List Text) : Except GlobFault Plan :=
  match gather exclusionGlobs fragments with
  | .error fault => .error fault
  | .ok exclusions =>
      match gather (target tree root) patterns with
      | .error fault => .error fault
      | .ok targets => .ok ⟨root, targets, exclusions.map Prod.fst, exclusions.filterMap Prod.snd⟩

def isEmpty (plan : Plan) : Bool := plan.targets.isEmpty

end Plan

end BlockSearch
