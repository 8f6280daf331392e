import BlockSearch.CommandLine.Run

set_option autoImplicit false

namespace BlockSearch.CommandLine

def requestedPaths (world : World) : Command → List Text
  | .read symbols paths limit compact => (Request.searchPaths ⟨[symbols], paths, limit, compact⟩)
  | .request file =>
      match requestText world file with
      | .ok text => ((Request.read text).map Request.searchPaths).getD []
      | .error _ => []
  | .settings => []
  | .overview => []

def startOf (root path : Text) : Text :=
  let mapped := FilePattern.complete path
  let pattern := Path.undotted mapped
  if FilePattern.hasGlobChars pattern then Plan.baseOf root pattern else Path.join root pattern

def reach (world : World) (arguments : List Text) : List Text :=
  match parse arguments with
  | .error _ => []
  | .ok invocation =>
      match settings world invocation with
      | .error _ => []
      | .ok settings => settings.root :: (requestedPaths world invocation.command).map (startOf settings.root)

def inputFiles (environment : Environment) (arguments : List Text) : List Text :=
  (settingsPath environment).toList ++
    match parse arguments with
    | .ok invocation =>
        match invocation.command with
        | .request (some file) => [file]
        | _ => []
    | .error _ => []

def readsInput (arguments : List Text) : Bool :=
  match parse arguments with
  | .ok invocation => invocation.command == .request none
  | .error _ => false

def environmentNames : List Text :=
  [Settings.rootVariable, Settings.debugVariable, Settings.workersVariable, "XDG_CONFIG_HOME".toList, "HOME".toList,
   "TERM".toList, "NO_COLOR".toList]

end BlockSearch.CommandLine
