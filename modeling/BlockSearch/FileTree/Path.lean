import BlockSearch.Text.Basic

set_option autoImplicit false

namespace BlockSearch.Path

inductive Component where
  | root
  | current
  | parent
  | name (name : Text)
deriving DecidableEq, Repr

def isSilent (piece : Text) : Bool := piece == [] || piece == ['.']

def Component.ofPiece (piece : Text) : Component := if piece = ['.', '.'] then .parent else .name piece

def bodyComponents (pieces : List Text) : List Component :=
  (pieces.filter fun piece => !isSilent piece).map Component.ofPiece

-- What a path begins with, apart from its names, and the pieces behind that.
def lead (path : Text) : List Component × List Text :=
  match Text.pieces '/' path with
  | [] :: piece :: rest => ([.root], piece :: rest)
  | ['.'] :: rest => ([.current], rest)
  | pieces => ([], pieces)

def components (path : Text) : List Component := (lead path).1 ++ bodyComponents (lead path).2

def isHere (path : Text) : Bool := components path == [.current]

def undotted (path : Text) : Text := (Text.afterLead ['.', '/'] path).getD path

def isAbsolute (path : Text) : Bool := Text.startsWith ['/'] path

def join (directory path : Text) : Text :=
  if isAbsolute path || directory.isEmpty then path
  else if Text.endsWith ['/'] directory then directory ++ path
  else directory ++ '/' :: path

def afterComponents : List Component → List Text → Option (List Text)
  | [], pieces => some pieces
  | _ :: _, [] => none
  | component :: components, piece :: pieces =>
      if isSilent piece then afterComponents (component :: components) pieces
      else if Component.ofPiece piece = component then afterComponents components pieces
      else none

def trimSilent (pieces : List Text) : List Text :=
  ((pieces.dropWhile isSilent).reverse.dropWhile isSilent).reverse

def below (directory path : Text) : Option Text :=
  if directory.isEmpty then some path
  else
    let (directoryLead, directoryPieces) := lead directory
    let (pathLead, pathPieces) := lead path
    if directoryLead = pathLead then
      (afterComponents (bodyComponents directoryPieces) pathPieces).map fun pieces =>
        Text.joined ['/'] (trimSilent pieces)
    else none

-- How a path is shown: from the root if it lies below, as it is otherwise.
def shown (root path : Text) : Text := (below root path).getD path

def ofNames (names : List Text) : Text := '/' :: Text.joined ['/'] names

def leads : List Text → List (List Text)
  | [] => []
  | name :: rest => [] :: (leads rest).map (name :: ·)

def splitName (path : Text) : Text × Text :=
  match Text.splitAtLast ['/'] path with
  | some (directory, name) => (directory ++ ['/'], name)
  | none => (['.', '/'], path)

-- The path with slashes for backslashes, as globs read it.
def slashed (path : Text) : Text := path.map fun c => if c = '\x5c' then '/' else c

end BlockSearch.Path
