import BlockSearch.Text.Basic

set_option autoImplicit false

namespace BlockSearch

mutual
inductive Node where
  | file (content : Bytes)
  | directory (entries : Directory)
  | link (target : Text)

inductive Directory where
  | empty
  | entry (name : Text) (node : Node) (rest : Directory)
end

-- Names are ordered as their bytes are, which is the order of the characters.
def nameBefore : Text → Text → Bool
  | [], [] => false
  | [], _ :: _ => true
  | _ :: _, [] => false
  | c :: a, d :: b => if c = d then nameBefore a b else decide (c.toNat < d.toNat)

namespace Directory

def find? (name : Text) : Directory → Option Node
  | .empty => none
  | .entry other node rest => if other = name then some node else find? name rest

def insert (name : Text) (node : Node) : Directory → Directory
  | .empty => .entry name node .empty
  | .entry other old rest =>
      if other = name then .entry name node rest
      else if nameBefore name other then .entry name node (.entry other old rest)
      else .entry other old (insert name node rest)

def erase (name : Text) : Directory → Directory
  | .empty => .empty
  | .entry other node rest => if other = name then rest else .entry other node (erase name rest)

def subdirectory (name : Text) (directory : Directory) : Directory :=
  match directory.find? name with
  | some (.directory entries) => entries
  | _ => .empty

def insertAt (node : Node) : List Text → Directory → Directory
  | [], directory => directory
  | [name], directory => directory.insert name node
  | name :: names, directory =>
      directory.insert name (.directory (insertAt node names (directory.subdirectory name)))

def makeAt : List Text → Directory → Directory
  | [], directory => directory
  | name :: names, directory => directory.insert name (.directory (makeAt names (directory.subdirectory name)))

def holding (name : Text) (way : Text) : Directory → List Text
  | .empty => []
  | .entry other node rest =>
      (if other = name then [way] else [])
        ++ (match node with
            | .directory entries => holding name (way ++ other ++ ['/']) entries
            | _ => [])
        ++ holding name way rest

def eraseAt : List Text → Directory → Directory
  | [], directory => directory
  | [name], directory => directory.erase name
  | name :: names, directory =>
      match directory.find? name with
      | some (.directory entries) => directory.insert name (.directory (eraseAt names entries))
      | _ => directory

end Directory

end BlockSearch
