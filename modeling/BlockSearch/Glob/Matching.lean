import BlockSearch.Glob.Marks

set_option autoImplicit false

namespace BlockSearch.Glob

def Piece.isLiteral : Piece → Bool
  | .literal _ => true
  | _ => false

def Piece.isSlash : Piece → Bool
  | .literal c => c == '/'
  | _ => false

def endsWithPoint (pieces : List Piece) : Bool :=
  match pieces.getLast? with
  | some (.literal c) => c == '.'
  | _ => false

-- Whether the glob leaves nothing open, except where it begins, and then it has several segments.
def isWrittenOut : List Piece → Bool
  | .anyAbove :: pieces => pieces.all Piece.isLiteral && pieces.any Piece.isSlash
  | pieces => pieces.all Piece.isLiteral

def asksForName (pieces : List Piece) : Bool := endsWithPoint pieces && !isWrittenOut pieces

def endsInTwoPoints (path : Bytes) : Bool := path.reverse.takeWhile (· != slash) == [0x2E, 0x2E]

def matchesWhole (path : Bytes) : List Piece → Bool
  | [.anyAbove] => true
  | pieces => (markAll path (marks List.isEmpty path) pieces).headD false

def matchesBytes (glob : Glob) (path : Bytes) : Bool :=
  !(asksForName glob.pieces && endsInTwoPoints path) && matchesWhole path glob.pieces

def isMatch (glob : Glob) (path : Text) : Bool := glob.matchesBytes (Text.utf8 path)

def anyMatch (globs : List Glob) (path : Text) : Bool :=
  let bytes := Text.utf8 path
  globs.any fun glob => glob.matchesBytes bytes

theorem matches_whole_eq (path : Bytes) (pieces : List Piece) (several : pieces ≠ [.anyAbove]) :
    matchesWhole path pieces = allAccept List.isEmpty pieces path := by
  unfold matchesWhole
  split
  · exact absurd rfl several
  · rw [mark_all_marks, marks_head]

end BlockSearch.Glob
