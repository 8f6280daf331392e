import BlockSearch.FilePattern.Extension

set_option autoImplicit false

namespace BlockSearch.Exclusion

def noiseFiles : Text := "!**/\x7b*.test.*,*.spec.*,_*,*.min.*\x7d".toList

def globalDirectories : List Text := ["node_modules", ".git"].map String.toList

def rootDirectories : List Text :=
  ["dist", "build", "out", "test", "tests", "examples", "runtime"].map String.toList

def nestedDirectories : List Text := ["bin", "scripts"].map String.toList

def segments (pattern : Text) : List Text := Text.piecesBy (fun c => c == '/' || c == '\x5c') pattern

def isNamed (directory : Text) (patterns : List Text) : Bool :=
  patterns.any fun pattern => (segments pattern).contains directory

def alternation : List Text → Option Text
  | [] => none
  | [name] => some name
  | names => some (FilePattern.braces names)

-- The exclusion of the directories that no pattern names, between what stands before and after them.
def tier (before : Text) (directories patterns : List Text) : Option Text :=
  (alternation (directories.filter fun directory => !isNamed directory patterns)).map fun names =>
    before ++ names ++ "/**".toList

def fragments (patterns : List Text) : List Text :=
  noiseFiles ::
    [tier "!**/".toList globalDirectories patterns,
     tier ['!'] rootDirectories patterns,
     tier "!*/**/".toList nestedDirectories patterns].filterMap id

def directoryStem (fragment : Text) : Option Text := Text.beforeTail "/**".toList fragment

end BlockSearch.Exclusion
