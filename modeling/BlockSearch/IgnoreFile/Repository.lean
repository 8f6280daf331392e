import BlockSearch.IgnoreFile.Rule

set_option autoImplicit false

namespace BlockSearch.IgnoreFile

def holdsRepository (tree : FileTree) (directory : Text) : Bool :=
  (tree.find? (Path.join directory ".git".toList)).isSome || (tree.find? (Path.join directory ".jj".toList)).isSome

def firstLine (content : Bytes) : Option (Except Cause Text) :=
  (byteLines content).head?.map fun line =>
    match FileTree.decode line with
    | some text => .ok text
    | none => .error .noText

def firstLineOf (tree : FileTree) (path : Text) : Except (List Fault) Text :=
  match tree.find? path with
  | none => .error []
  | some (.directory _) => .error [⟨path, none, .isDirectory⟩]
  | some (.file content) =>
      match firstLine content with
      | none => .error []
      | some (.error cause) => .error [⟨path, none, cause⟩]
      | some (.ok line) => .ok line

def namedDirectory (line : Text) : Except (List Fault) Text :=
  match Text.afterLead "gitdir: ".toList line with
  | some directory => .ok directory
  | none => .error []

-- The directory that is shared; it is named from the one that names it if its name begins with a point.
def sharedDirectory (tree : FileTree) (named : Text) : Except (List Fault) Text :=
  (firstLineOf tree (Path.join named "commondir".toList)).map fun shared =>
    if Text.startsWith ['.'] shared then Path.join named shared else shared

def repositoryOf (tree : FileTree) (directory : Text) : Except (List Fault) Text :=
  let place := Path.join directory ".git".toList
  match tree.file? place with
  | none => .ok place
  | some _ => (firstLineOf tree place).bind namedDirectory |>.bind (sharedDirectory tree)

def filesElsewhere (tree : FileTree) (directory : Text) : List Text :=
  let place := Path.join directory ".git".toList
  match (tree.file? place).bind fun _ => ((firstLineOf tree place).bind namedDirectory).toOption with
  | none => []
  | some named =>
      Path.join named "commondir".toList ::
        ((sharedDirectory tree named).toOption.map fun shared => Path.join shared "info/exclude".toList).toList

def repositoryExclusions (tree : FileTree) (directory : Text) : Rules :=
  match repositoryOf tree directory with
  | .error faults => ⟨[], faults⟩
  | .ok repository => Rules.ofFile tree (Path.join repository "info/exclude".toList)

end BlockSearch.IgnoreFile
