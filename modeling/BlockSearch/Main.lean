import BlockSearch.CommandLine.Reach

set_option autoImplicit false

namespace BlockSearch.Main

def toText (text : String) : Text := text.toList

def ofText (text : Text) : String := String.ofList text

def entryAt (path : Text) : IO.FS.DirEntry := ⟨"/", ofText path⟩

partial def load (entry : IO.FS.DirEntry) : IO (Option Node) := do
  try
    let found ← entry.path.symlinkMetadata
    match found.type with
    | .file => return some (.file (← IO.FS.readBinFile entry.path).toList)
    | .dir =>
        let mut directory := Directory.empty
        for child in ← entry.path.readDir do
          if let some node ← load child then
            directory := directory.insert (toText child.fileName) node
        return some (.directory directory)
    | .symlink => return some (.link (toText (← IO.FS.realPath entry.path).toString))
    | .other => return none
  catch _ => return none

def names (path : Text) : List Text := (Text.pieces '/' path).filter fun piece => !piece.isEmpty

def addPath (top : Directory) (path : Text) : IO Directory := do
  match ← load (entryAt path) with
  | some node => return top.insertAt node (names path)
  | none => return top

def filesAbove (files : List String) (path : Text) : List Text :=
  (Path.leads (names path)).flatMap fun above => files.map fun file => Path.ofNames (above ++ [file.toList])

def addMarker (top : Directory) (path : Text) : IO Directory := do
  if ← (entryAt path).path.isDir then return top.makeAt (names path)
  else addPath top path

def addRules (top : Directory) (path : Text) : IO Directory := do
  let marked ← (filesAbove [".git", ".jj"] path).foldlM addMarker top
  (filesAbove [".ignore", ".gitignore", ".git/info/exclude"] path).foldlM addPath marked

def canonical (directory path : Text) : IO (Option Text) := do
  try return some (toText (← IO.FS.realPath (entryAt (Path.join directory path)).path).toString)
  catch _ => return none

def readAll (tree : FileTree) (paths : List Text) : IO FileTree := do
  let mut top := tree.top
  for path in paths do
    if let some real ← canonical tree.workingDirectory path then
      top ← addPath (← addRules top real) real
  return { tree with top := top }

def readElsewhere (tree : FileTree) : IO FileTree :=
  readAll tree ((tree.top.holding ".git".toList ['/']).flatMap (IgnoreFile.filesElsewhere tree))

def environment : IO CommandLine.Environment := do
  let values ← CommandLine.environmentNames.mapM fun name => do
    return (name, (← IO.getEnv (ofText name)).map toText)
  return fun name => (values.find? fun pair => pair.1 == name).bind Prod.snd

def run (arguments : List Text) : IO CommandLine.Exit := do
  let environment ← environment
  let workingDirectory := toText (← IO.currentDir).toString
  let empty : FileTree := ⟨Directory.empty.makeAt (names workingDirectory), workingDirectory⟩
  let inputs ← readAll empty (CommandLine.inputFiles environment arguments)
  let input ← if CommandLine.readsInput arguments then (← IO.getStdin).readToEnd else pure ""
  let world : CommandLine.World := ⟨inputs, environment, toText input⟩
  let found ← readAll inputs (CommandLine.reach world arguments)
  let tree ← readElsewhere (← readElsewhere found)
  return CommandLine.run { world with tree := tree } arguments

end BlockSearch.Main

def main (arguments : List String) : IO UInt32 := do
  let exit ← BlockSearch.Main.run (arguments.map String.toList)
  IO.print (String.ofList exit.output)
  if let some message := exit.failure then
    IO.eprintln (String.ofList message)
  return exit.status.toUInt32
