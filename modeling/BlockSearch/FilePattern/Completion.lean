import BlockSearch.FilePattern.Extension

set_option autoImplicit false

namespace BlockSearch.FilePattern

def packagesDirectory : Text := "node_modules".toList

def typesAlternative : Text := "\x7b@types/,\x7d".toList

-- Offers the types of the package that the first `node_modules` segment is followed by, unless that segment is empty or
-- already a scope.
def offerTypes : List Text → List Text
  | [] => []
  | segment :: rest =>
      if segment = packagesDirectory then
        match rest with
        | [] => [segment]
        | [] :: others => segment :: [] :: others
        | (c :: name) :: others =>
            if c = '@' then segment :: (c :: name) :: others
            else segment :: (typesAlternative ++ c :: name) :: others
      else segment :: offerTypes rest

def withTypesPackage (pattern : Text) : Text := Text.joined ['/'] (offerTypes (Text.pieces '/' pattern))

def recursiveFiles : Text := "**/*.".toList ++ extensionClass

-- The glob a pattern stands for. The first case that applies decides: an extension is named; the current directory; a
-- directory with a trailing slash; every name of the current directory; a plain name, taken for a directory; any other
-- glob, whose last segment gets the extensions.
def complete (input : Text) : Text :=
  let pattern := withTypesPackage input
  if namesExtension input then pattern
  else if input = ['.'] ∨ input = ['.', '/'] then "./".toList ++ recursiveFiles
  else if Text.endsWith ['/'] pattern then pattern ++ recursiveFiles
  else if input = ['*'] ∨ input = "*.*".toList then "*.".toList ++ extensionClass
  else if hasGlobChars input then pattern ++ '.' :: extensionClass
  else pattern ++ '/' :: recursiveFiles

end BlockSearch.FilePattern
