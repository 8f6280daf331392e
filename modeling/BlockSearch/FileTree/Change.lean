import BlockSearch.FileTree.Location

set_option autoImplicit false

namespace BlockSearch.FileTree

def put (tree : FileTree) (directory name : Text) (node : Node) : FileTree :=
  match tree.directory? directory with
  | some location => { tree with top := tree.top.insertAt node (location.names ++ [name]) }
  | none => tree

def makeBelow (tree : FileTree) (directory : Text) : List Text → FileTree
  | [] => tree
  | piece :: rest =>
      let inner := directory ++ piece ++ ['/']
      if (tree.find? inner).isSome then makeBelow tree inner rest
      else makeBelow (tree.put directory piece (.directory .empty)) inner rest

def makeDirectory (tree : FileTree) (path : Text) : FileTree :=
  tree.makeBelow (if Path.isAbsolute path then [] else ['.', '/']) (Text.pieces '/' path)

def placeOf (tree : FileTree) : Nat → Text → Option (List Text)
  | links, path =>
      match tree.directory? (Path.splitName path).1 with
      | none => none
      | some location =>
          match location.current.find? (Path.splitName path).2, links with
          | some (.link _), 0 => none
          | some (.link target), links + 1 => placeOf tree links (Path.join location.path target)
          | _, _ => some (location.names ++ [(Path.splitName path).2])

def write (tree : FileTree) (path : Text) (content : Bytes) : FileTree :=
  let tree := tree.makeDirectory (Path.splitName path).1
  match tree.placeOf Location.maxLinks path with
  | some names => { tree with top := tree.top.insertAt (.file content) names }
  | none => tree

def addLink (tree : FileTree) (path target : Text) : FileTree :=
  let (directory, name) := Path.splitName path
  (tree.makeDirectory directory).put directory name (.link target)

def remove (tree : FileTree) (path : Text) : FileTree :=
  match tree.directory? (Path.splitName path).1 with
  | some location => { tree with top := tree.top.eraseAt (location.names ++ [(Path.splitName path).2]) }
  | none => tree

end BlockSearch.FileTree
