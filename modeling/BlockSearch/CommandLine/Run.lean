import BlockSearch.CommandLine.Arguments
import BlockSearch.Engine
import BlockSearch.Report.Styled
import BlockSearch.Request.Encoding
import BlockSearch.Settings.Encoding
import BlockSearch.Settings.Environment

set_option autoImplicit false

namespace BlockSearch.CommandLine

-- Status 0 is success, 1 a failure with a message, 2 a wrong use of the arguments.
structure Exit where
  status : Nat
  output : Text
  failure : Option Text
deriving DecidableEq, Repr

inductive RunError where
  | settingsUnreadable (path : Text)
  | settingsInvalid
  | requestUnreadable (path : Text)
  | requestInvalid
  | search (error : SearchError)
deriving DecidableEq, Repr

def RunError.message : RunError → Text
  | .settingsUnreadable path => "Failed to read config file ".toList ++ path
  | .settingsInvalid => "Failed to parse config file".toList
  | .requestUnreadable path => "Failed to read request file ".toList ++ path
  | .requestInvalid => "Failed to parse request JSON".toList
  | .search error => error.message

namespace Exit

def success (output : Text) : Exit := ⟨0, output, none⟩

def failed (error : RunError) : Exit := ⟨1, [], some ("Error: ".toList ++ error.message)⟩

def ofResult : Except RunError Text → Exit
  | .ok output => success output
  | .error error => failed error

def failureLine (exit : Exit) : Option Text := exit.failure.map fun message => (Text.shownLines message).headD []

end Exit

abbrev Environment := Text → Option Text

structure World where
  tree : FileTree
  environment : Environment
  input : Text

def settingsDirectory (environment : Environment) : Option Text :=
  match (environment "XDG_CONFIG_HOME".toList).filter Path.isAbsolute with
  | some directory => some directory
  | none =>
      ((environment "HOME".toList).filter fun home => !home.isEmpty).map fun home =>
        Path.join home ".config".toList

def settingsPath (environment : Environment) : Option Text :=
  (settingsDirectory environment).map fun directory => Path.join directory "symscan/config.json".toList

def storedSettings (world : World) : Except RunError Settings :=
  let root := world.tree.workingDirectory
  match (settingsPath world.environment).filter fun path => (world.tree.find? path).isSome with
  | none => .ok (.initial root)
  | some path =>
      match world.tree.text? path with
      | none => .error (.settingsUnreadable path)
      | some text =>
          match Settings.read root text with
          | some settings => .ok settings
          | none => .error .settingsInvalid

def settings (world : World) (invocation : Invocation) : Except RunError Settings :=
  (storedSettings world).map fun stored =>
    let settings := stored.withEnvironment world.environment
    { settings with
      root := invocation.root.getD settings.root
      debug := settings.debug || invocation.debug }

def showsColours (environment : Environment) : Bool :=
  (environment "TERM".toList).any (· != "dumb".toList) && (environment "NO_COLOR".toList).isNone

def requestText (world : World) : Option Text → Except RunError Text
  | none => .ok world.input
  | some path =>
      match world.tree.text? path with
      | some text => .ok text
      | none => .error (.requestUnreadable path)

def overview : Text :=
  ("symscan [read] SYMBOLS [PATHS...] [-l N] [-c]\nsymscan request [FILE]\nsymscan config\n"
    ++ "Options: --root DIR, --debug, --no-color, --help\n").toList

section

variable (refuses : Symbol.Refusal)

def search (tree : FileTree) (settings : Settings) (coloured : Bool) (request : Request) : Except RunError Text :=
  match ((Engine.ofSettings settings refuses).search tree false request).1 with
  | .ok outcome => .ok (Report.written coloured ⟨settings.debug, request.compact⟩ outcome)
  | .error error => .error (.search error)

def answer (tree : FileTree) (settings : Settings) (text : Text) : Except RunError Text :=
  match Request.read text with
  | none => .error .requestInvalid
  | some request =>
      match ((Engine.ofSettings settings refuses).read tree request).1 with
      | .ok report => .ok (report ++ ['\n'])
      | .error error => .error (.search error)

def execute (world : World) (settings : Settings) (coloured : Bool) : Command → Except RunError Text
  | .read symbols paths limit compact =>
      search refuses world.tree settings coloured ⟨Request.symbolList symbols, paths, limit, compact⟩
  | .request file =>
      match requestText world file with
      | .ok text => answer refuses world.tree settings text
      | .error error => .error error
  | .settings => .ok (settings.write ++ ['\n'])
  | .overview => .ok overview

def perform (world : World) (invocation : Invocation) : Except RunError Text :=
  match settings world invocation with
  | .error error => .error error
  | .ok settings =>
      execute refuses world settings (invocation.coloured && showsColours world.environment) invocation.command

end

def run (world : World) (arguments : List Text) (refuses : Symbol.Refusal := .never) : Exit :=
  match parse arguments with
  | .error .usage => ⟨2, [], none⟩
  | .error .help => .success overview
  | .ok invocation => .ofResult (perform refuses world invocation)

end BlockSearch.CommandLine
