import BlockSearch.Text.Basic

set_option autoImplicit false

namespace BlockSearch

namespace Glob

inductive Piece where
  | literal (c : Char)
  | anyByte
  | anyRun
  -- A double star at the front: nothing, or all up to a slash.
  | anyAbove
  -- A double star at the back: a slash and all behind it.
  | anyBelow
  -- A double star between slashes: a slash, or all from one slash to another.
  | anyBetween
  | byteClass (negated : Bool) (ranges : List (Char × Char))
  | alternatives (branches : List (List Piece))

inductive Cause where
  | unclosedClass
  | invalidRange (first last : Char)
  | unopenedBraces
  | unclosedBraces
  | danglingEscape
deriving DecidableEq, Repr

def Cause.message : Cause → Text
  | .unclosedClass => "unclosed character class; missing ']'".toList
  | .invalidRange first last => "invalid range; '".toList ++ first :: "' > '".toList ++ [last, '\x27']
  | .unopenedBraces => "unopened alternate group; missing '\x7b' (maybe escape '\x7d' with '[\x7d]'?)".toList
  | .unclosedBraces => "unclosed alternate group; missing '\x7d' (maybe escape '\x7b' with '[\x7b]'?)".toList
  | .danglingEscape => "dangling '\\'".toList

def Cause.describe (source : Text) (cause : Cause) : Text :=
  "error parsing glob '".toList ++ source ++ "': ".toList ++ cause.message

def slash : UInt8 := 0x2F

-- The bytes a class of characters stands for. A character of several bytes stands for each of them, so of a range
-- between two such characters only the inner bytes form a range.
def classRanges : List (Char × Char) → List (UInt8 × UInt8)
  | [] => []
  | (first, last) :: ranges =>
      let low := String.utf8EncodeChar first
      let high := String.utf8EncodeChar last
      let single : UInt8 → UInt8 × UInt8 := fun byte => (byte, byte)
      (if first = last then low.map single
        else low.dropLast.map single ++ [(low.getLastD 0, high.headD 0)] ++ high.tail.map single)
        ++ classRanges ranges

def inRanges (ranges : List (UInt8 × UInt8)) (byte : UInt8) : Bool :=
  ranges.any fun (low, high) => decide (low ≤ byte) && decide (byte ≤ high)

def afterBytes : Bytes → Bytes → Option Bytes
  | [], bytes => some bytes
  | _ :: _, [] => none
  | a :: lead, b :: bytes => if a = b then afterBytes lead bytes else none

def someWithin (next : Bytes → Bool) : Bytes → Bool
  | [] => next []
  | byte :: rest => next (byte :: rest) || (byte != slash && someWithin next rest)

def someRest (next : Bytes → Bool) : Bytes → Bool
  | [] => next []
  | byte :: rest => next (byte :: rest) || someRest next rest

def someBelow (next : Bytes → Bool) : Bytes → Bool
  | [] => false
  | byte :: rest => (byte == slash && next rest) || someBelow next rest

mutual
def Piece.accepts (next : Bytes → Bool) : Piece → Bytes → Bool
  | .literal c, bytes =>
      match afterBytes (String.utf8EncodeChar c) bytes with
      | some rest => next rest
      | none => false
  | .anyByte, bytes =>
      match bytes with
      | byte :: rest => byte != slash && next rest
      | [] => false
  | .anyRun, bytes => someWithin next bytes
  | .anyAbove, bytes => next bytes || someBelow next bytes
  | .anyBelow, bytes =>
      match bytes with
      | byte :: rest => byte == slash && someRest next rest
      | [] => false
  | .anyBetween, bytes =>
      match bytes with
      | byte :: rest => byte == slash && (next rest || someBelow next rest)
      | [] => false
  | .byteClass negated ranges, bytes =>
      match bytes with
      | byte :: rest => inRanges (classRanges ranges) byte != negated && next rest
      | [] => false
  | .alternatives branches, bytes => anyAccepts next branches bytes

def allAccept (next : Bytes → Bool) : List Piece → Bytes → Bool
  | [], bytes => next bytes
  | piece :: pieces, bytes => piece.accepts (fun rest => allAccept next pieces rest) bytes

def anyAccepts (next : Bytes → Bool) : List (List Piece) → Bytes → Bool
  | [], _ => false
  | branch :: branches, bytes => allAccept next branch bytes || anyAccepts next branches bytes
end

end Glob

structure Glob where
  source : Text
  pieces : List Glob.Piece

end BlockSearch
