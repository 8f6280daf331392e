import BlockSearch.FileTree.Location
import BlockSearch.Glob.Matching
import BlockSearch.Glob.Reader

set_option autoImplicit false

namespace BlockSearch.IgnoreFile

structure Rule where
  glob : Glob
  readmits : Bool
  directoriesOnly : Bool

def dialect : Glob.Dialect := ⟨false, true⟩

-- Blanks at the end do not count, unless the last of them is escaped.
def significant (line : Text) : Text := if Text.endsWith ['\x5c', ' '] line then line else Text.trimEnd line

structure Draft where
  readmits : Bool
  anchored : Bool
  pattern : Text
deriving DecidableEq, Repr

def Draft.ofLine (line : Text) : Draft :=
  if Text.startsWith ['\x5c', '!'] line || Text.startsWith ['\x5c', '#'] line then ⟨false, false, line.tail⟩
  else
    let readmits := Text.startsWith ['!'] line
    let rest := if readmits then line.tail else line
    if Text.startsWith ['/'] rest then ⟨readmits, true, rest.tail⟩ else ⟨readmits, false, rest⟩

-- The pattern without the slash at its end, and whether there was one; an escape of that slash goes with it.
def splitDirectoryMark (pattern : Text) : Text × Bool :=
  match Text.beforeTail ['/'] pattern with
  | some stem => ((Text.beforeTail ['\x5c'] stem).getD stem, true)
  | none => (pattern, false)

def anywhere (draft : Draft) (pattern : Text) : Text :=
  if draft.anchored || pattern.contains '/' || pattern == ['*', '*'] then pattern
  else "**/".toList ++ pattern

-- All below a directory does not include the directory.
def belowOnly (pattern : Text) : Text :=
  if Text.endsWith "/**".toList pattern then pattern ++ ['/', '*'] else pattern

def Rule.ofLine (line : Text) : Option (Except (Text × Glob.Cause) Rule) :=
  if Text.startsWith ['#'] line then none
  else
    let line := significant line
    if line.isEmpty then none
    else
      let draft := Draft.ofLine line
      let (pattern, directoriesOnly) := splitDirectoryMark draft.pattern
      some (match Glob.read dialect (belowOnly (anywhere draft pattern)) with
        | .ok glob => .ok ⟨glob, draft.readmits, directoriesOnly⟩
        | .error cause => .error (line, cause))

inductive Cause where
  | glob (line : Text) (cause : Glob.Cause)
  | noText
  | isDirectory
deriving DecidableEq, Repr

def Cause.message : Cause → Text
  | .glob line cause => cause.describe line
  | .noText => "stream did not contain valid UTF-8".toList
  | .isDirectory => "Is a directory (os error 21)".toList

structure Fault where
  path : Text
  line : Option Nat
  cause : Cause
deriving DecidableEq, Repr

def Fault.message (fault : Fault) : Text :=
  let place := match fault.line with
    | some line => "line ".toList ++ Text.ofNat line ++ ": ".toList
    | none => []
  fault.path ++ ": ".toList ++ place ++ fault.cause.message

def byteLines : Bytes → List Bytes
  | [] => []
  | 0x0D :: 0x0A :: rest => [] :: byteLines rest
  | 0x0A :: rest => [] :: byteLines rest
  | byte :: rest =>
      match byteLines rest with
      | [] => [[byte]]
      | line :: lines => (byte :: line) :: lines

structure Rules where
  rules : List Rule
  faults : List Fault

namespace Rules

def none : Rules := ⟨[], []⟩

-- The text of a line; a byte order mark in front of the first one does not count.
def lineText (number : Nat) (bytes : Bytes) : Option Text :=
  (FileTree.decode bytes).map fun line => if number = 1 then line.dropWhile (· == '\uFEFF') else line

-- Reads lines of a file from a number on. A line that is no text ends the reading.
def ofLines (path : Text) (number : Nat) : List Bytes → Rules
  | [] => none
  | bytes :: rest =>
      match lineText number bytes with
      | Option.none => ⟨[], [⟨path, some number, .noText⟩]⟩
      | some line =>
          let others := ofLines path (number + 1) rest
          match Rule.ofLine line with
          | Option.none => others
          | some (.ok rule) => { others with rules := rule :: others.rules }
          | some (.error (line, cause)) =>
              { others with faults := ⟨path, some number, .glob line cause⟩ :: others.faults }

def withoutReadFault (rules : Rules) : Rules :=
  match rules.faults with
  | [⟨_, _, .noText⟩] => { rules with faults := [] }
  | _ => rules

def ofContent (path : Text) (content : Bytes) : Rules := (ofLines path 1 (byteLines content)).withoutReadFault

def ofFile (tree : FileTree) (path : Text) : Rules :=
  match tree.file? path with
  | some content => ofContent path content
  | Option.none => none

end Rules

inductive Verdict where
  | leaveOut
  | takeIn
deriving DecidableEq, Repr

def Rules.verdict (rules : Rules) (path : Text) (isDirectory : Bool) : Option Verdict :=
  (rules.rules.reverse.find? fun rule =>
    (!rule.directoriesOnly || isDirectory) && rule.glob.isMatch path).map fun rule =>
      if rule.readmits then .takeIn else .leaveOut

end BlockSearch.IgnoreFile
