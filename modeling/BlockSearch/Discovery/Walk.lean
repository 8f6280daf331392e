import BlockSearch.Discovery.Plan
import BlockSearch.IgnoreFile.Scope

set_option autoImplicit false

namespace BlockSearch

structure WalkedFile where
  path : Text
  way : Text
  size : Nat
deriving DecidableEq, Repr

-- The directory a walk is in. The scope is missing when rule files do not count.
structure Visit where
  path : Text
  -- From where the walk began, with a slash behind every name.
  way : Text
  scope : Option IgnoreFile.Scope

namespace Visit

def start (tree : FileTree) (base : Text) (scope : Option IgnoreFile.Scope) : Visit :=
  ⟨base, [], scope.map fun scope => scope.enter tree base⟩

def enter (tree : FileTree) (visit : Visit) (name : Text) : Visit :=
  let path := Path.join visit.path name
  { path := path
    way := visit.way ++ name ++ ['/']
    scope := visit.scope.map fun scope => scope.enter tree path }

def leavesOut (visit : Visit) (name : Text) (isDirectory : Bool) : Bool :=
  visit.scope.any fun scope => scope.leavesOut (Path.join visit.path name) isDirectory

end Visit

structure WalkSetting where
  tree : FileTree
  root : Text
  pruned : List Glob

def WalkSetting.prunes (setting : WalkSetting) (path : Text) : Bool :=
  Glob.anyMatch setting.pruned (Path.slashed (Path.shown setting.root path))

mutual
def Node.files (setting : WalkSetting) (visit : Visit) (levels : Nat) (name : Text) : Node → List WalkedFile
  | .file content =>
      if visit.leavesOut name false then []
      else [⟨Path.join visit.path name, visit.way ++ name, content.length⟩]
  | .link _ => []
  | .directory entries =>
      match levels with
      | 0 => []
      | levels + 1 =>
          if visit.leavesOut name true || setting.prunes (Path.join visit.path name) then []
          else entries.files setting (visit.enter setting.tree name) levels

def Directory.files (setting : WalkSetting) (visit : Visit) (levels : Nat) : Directory → List WalkedFile
  | .empty => []
  | .entry name node rest => node.files setting visit levels name ++ rest.files setting visit levels
end

def Visit.files (setting : WalkSetting) (visit : Visit) (entries : Directory) : Nat → List WalkedFile
  | 0 => []
  | levels + 1 => entries.files setting visit levels

end BlockSearch
