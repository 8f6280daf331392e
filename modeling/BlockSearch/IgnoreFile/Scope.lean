import BlockSearch.IgnoreFile.Repository

/-!
The rules in force in a directory: those of the directory and of all directories above it, up to the top of the tree.
Some of them count only inside a repository, and not above the directory that holds it. Rules below the directory in
which a walk began see paths as the walk writes them, those above see them from the top.
-/

set_option autoImplicit false

namespace BlockSearch.IgnoreFile

structure Level where
  directory : Text
  general : Rules
  repository : Rules
  excluded : Rules
  holdsRepository : Bool

namespace Level

def ofDirectory (tree : FileTree) (directory : Text) : Level :=
  { directory := Path.undotted directory
    general := Rules.ofFile tree (Path.join directory ".ignore".toList)
    repository := Rules.ofFile tree (Path.join directory ".gitignore".toList)
    excluded := repositoryExclusions tree directory
    holdsRepository := IgnoreFile.holdsRepository tree directory }

def behind (directory path : Text) : Text :=
  match Text.afterLead directory path with
  | some rest => (Text.afterLead ['/'] rest).getD rest
  | none => path

def candidate (level : Level) (path : Text) : Text :=
  let path := Path.undotted path
  if Path.isHere level.directory || !path.contains '/' then path else behind level.directory path

def faults (level : Level) : List Fault :=
  level.general.faults ++ level.repository.faults ++ level.excluded.faults

end Level

-- Both lists go outwards: from the directory in question to the one where the walk began, and on to the top. The walk
-- began at `base`, which is `realBase` from the top.
structure Scope where
  own : List Level
  above : List Level
  base : Text
  realBase : Text

namespace Scope

def ofBase (tree : FileTree) (base : Text) (location : Location) : Scope :=
  { own := []
    above := (location.pathsAbove.map (Level.ofDirectory tree)).reverse
    base := base
    realBase := location.path }

def enter (tree : FileTree) (scope : Scope) (directory : Text) : Scope :=
  { scope with own := Level.ofDirectory tree directory :: scope.own }

def fromTop (scope : Scope) (path : Text) : Text :=
  Path.join scope.realBase
    (if Path.isHere scope.base then path else Level.behind (Path.undotted scope.base) path)

-- The levels up to the first that holds a repository; none, if none does.
def insideRepository {α : Type} : List (Level × α) → List (Level × α)
  | [] => []
  | (level, item) :: outer =>
      if level.holdsRepository then [(level, item)]
      else match insideRepository outer with
        | [] => []
        | inside => (level, item) :: inside

def candidates (scope : Scope) (path : Text) : List (Level × Text) :=
  let path := Path.undotted path
  let fromTop := scope.fromTop path
  scope.own.map (fun level => (level, level.candidate path))
    ++ scope.above.map (fun level => (level, level.candidate fromTop))

-- What the rules say of an entry of the directory; the innermost level that says something decides, and general rules
-- come before those of a repository.
def verdict (scope : Scope) (path : Text) (isDirectory : Bool) : Option Verdict :=
  let levels := scope.candidates path
  let inside := insideRepository levels
  let ask (kind : Level → Rules) (levels : List (Level × Text)) : Option Verdict :=
    levels.findSome? fun (level, candidate) => (kind level).verdict candidate isDirectory
  ((ask Level.general levels).or (ask Level.repository inside)).or (ask Level.excluded inside)

def leavesOut (scope : Scope) (path : Text) (isDirectory : Bool) : Bool :=
  scope.verdict path isDirectory == some .leaveOut

def faultsAbove (scope : Scope) : List Fault := scope.above.reverse.flatMap Level.faults

end Scope

end BlockSearch.IgnoreFile
