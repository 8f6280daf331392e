import BlockSearch.Text.Basic

set_option autoImplicit false

namespace BlockSearch.FilePattern

def defaultExtensions : List Text :=
  ["d.ts", "ts", "tsx", "js", "jsx", "mjs", "cjs", "cts", "java", "cs", "cpp", "c", "h", "hpp", "cc", "go", "rs",
   "php", "swift", "scss", "css", "less", "graphql", "gql", "prisma", "proto"].map String.toList

def declarationSuffixes : List Text := [".d.ts", ".d.mts", ".d.cts"].map String.toList

def isDeclarationFile (path : Text) : Bool :=
  declarationSuffixes.any fun suffix => Text.endsWith suffix path

def braces (alternatives : List Text) : Text :=
  '{' :: Text.joined [','] alternatives ++ ['}']

def extensionClass : Text := braces defaultExtensions

def globChars : Text := ['*', '?', '[', ']', '{', '}']

def hasGlobChars (pattern : Text) : Bool := pattern.any globChars.contains

def lastSegment (pattern : Text) : Text := (Text.pieces '/' pattern).getLastD []

def endsInDefaultExtension (segment : Text) : Bool :=
  defaultExtensions.any fun extension =>
    match Text.beforeTail ('.' :: extension) segment with
    | some stem => !stem.isEmpty
    | none => false

def bracedExtensions (segment : Text) : Option (Text × List Text) :=
  match Text.splitAtLast ['.', '{'] segment with
  | some (stem, rest) => (Text.beforeTail ['}'] rest).map fun inner => (stem, Text.pieces ',' inner)
  | none => none

def endsInShortExtension (segment : Text) : Bool :=
  match Text.splitAtLast ['.'] segment with
  | some (stem, extension) =>
      !stem.isEmpty && !extension.isEmpty && decide (Text.size extension ≤ 8)
        && extension.all CharClass.isAsciiAlphanumeric
  | none => false

-- A segment names an extension by a default one, by braces, or by a short one; braces that are there decide.
def segmentNamesExtension (segment : Text) : Bool :=
  endsInDefaultExtension segment ||
    match bracedExtensions segment with
    | some (stem, alternatives) =>
        !stem.isEmpty && alternatives.all fun alternative =>
          !alternative.isEmpty && alternative.all fun c => CharClass.isAsciiAlphanumeric c || c == '.'
    | none => endsInShortExtension segment

def namesExtension (pattern : Text) : Bool := segmentNamesExtension (lastSegment pattern)

end BlockSearch.FilePattern
