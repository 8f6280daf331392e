import BlockSearch.FileTree.Basic
import BlockSearch.FileTree.Path

/-!
What a path leads to. Links are followed wherever they stand, but not more than forty of them, so a circle of links
leads nowhere, and neither does a path of more than 4095 bytes. Two points lead to the directory above the one reached,
not to the one written before them.
-/

set_option autoImplicit false

namespace BlockSearch

-- A directory with those above it: the names and directories from the inside out, and the outermost one.
structure Location where
  top : Directory
  inner : List (Text × Directory)

namespace Location

def current (location : Location) : Directory :=
  match location.inner with
  | [] => location.top
  | (_, directory) :: _ => directory

def up (location : Location) : Location := { location with inner := location.inner.tail }

def atTop (location : Location) : Location := { location with inner := [] }

def down (location : Location) (name : Text) (directory : Directory) : Location :=
  { location with inner := (name, directory) :: location.inner }

def names (location : Location) : List Text := (location.inner.map Prod.fst).reverse

def path (location : Location) : Text := Path.ofNames location.names

def pathsAbove (location : Location) : List Text := (Path.leads location.names).map Path.ofNames

end Location

inductive Found where
  | directory (location : Location)
  | file (content : Bytes)

namespace Location

def walk (again : Location → List Text → Option Found) : Location → List Text → Option Found
  | location, [] => some (.directory location)
  | location, piece :: rest =>
      if piece = [] ∨ piece = ['.'] then walk again location rest
      else if piece = ['.', '.'] then walk again location.up rest
      else match location.current.find? piece with
        | none => none
        | some (.directory entries) => walk again (location.down piece entries) rest
        | some (.file content) => if rest.isEmpty then some (.file content) else none
        | some (.link target) =>
            again (if Path.isAbsolute target then location.atTop else location)
              (Text.pieces '/' target ++ rest)

def follow : Nat → Location → List Text → Option Found
  | 0 => walk fun _ _ => none
  | links + 1 => walk (follow links)

def maxLinks : Nat := 40

def maxPathSize : Nat := 4095

def find? (location : Location) (path : Text) : Option Found :=
  if path.isEmpty ∨ maxPathSize < Text.size path then none
  else follow maxLinks (if Path.isAbsolute path then location.atTop else location) (Text.pieces '/' path)

end Location

structure FileTree where
  top : Directory
  workingDirectory : Text

namespace FileTree

def find? (tree : FileTree) (path : Text) : Option Found :=
  let start : Location := ⟨tree.top, []⟩
  if Path.isAbsolute path then start.find? path
  else match start.find? tree.workingDirectory with
    | some (.directory location) => location.find? path
    | _ => none

def directory? (tree : FileTree) (path : Text) : Option Location :=
  match tree.find? path with
  | some (.directory location) => some location
  | _ => none

def file? (tree : FileTree) (path : Text) : Option Bytes :=
  match tree.find? path with
  | some (.file content) => some content
  | _ => none

def decode (bytes : Bytes) : Option Text := (String.fromUTF8? ⟨bytes.toArray⟩).map String.toList

def text? (tree : FileTree) (path : Text) : Option Text := (tree.file? path).bind decode

end FileTree

end BlockSearch
