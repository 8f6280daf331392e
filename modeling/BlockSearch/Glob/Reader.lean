import BlockSearch.Glob.Basic

set_option autoImplicit false

namespace BlockSearch.Glob

structure Dialect where
  -- An alternative that is empty counts; otherwise it is left out.
  emptyAlternatives : Bool
  -- A bracket that is never closed stands for itself, and so do those behind it.
  loneBrackets : Bool
deriving DecidableEq, Repr

-- The branches of an open group; the pieces of each and the branches are in reverse.
structure Level where
  finished : List (List Piece)
  current : List Piece

structure State where
  level : Level
  outer : List Level
  previous : Option Char
  literalBrackets : Bool

namespace State

def start : State := ⟨⟨[], []⟩, [], none, false⟩

def inBraces (state : State) : Bool := !state.outer.isEmpty

def push (state : State) (piece : Piece) : State :=
  { state with level := { state.level with current := piece :: state.level.current } }

def pushAll (state : State) (pieces : List Piece) : State := pieces.foldl push state

def openBraces (state : State) : State :=
  { state with level := ⟨[], []⟩, outer := state.level :: state.outer }

def closeBraces (state : State) : Except Cause State :=
  match state.outer with
  | [] => .error .unopenedBraces
  | level :: outer =>
      let branches := ((state.level.current :: state.level.finished).map List.reverse).reverse
      .ok (push { state with level := level, outer := outer } (.alternatives branches))

def comma (state : State) : State :=
  if state.inBraces then
    { state with level := ⟨state.level.current :: state.level.finished, []⟩ }
  else state.push (.literal ',')

def doubleStar (state : State) (piece : Piece) : State :=
  match state.level.current with
  | .anyAbove :: _ => state
  | .anyBelow :: _ => state
  | _ :: before => { state with level := { state.level with current := piece :: before } }
  | [] => state.push piece

end State

abbrev Step := Except Cause (Nat × State)

def readStar (state : State) (rest : Text) : Step :=
  match rest with
  | '*' :: rest =>
      let stars := state.pushAll [.anyRun, .anyRun]
      if state.level.current.isEmpty then
        match rest with
        | [] => .ok (1, state.push .anyAbove)
        | '/' :: _ => .ok (2, state.push .anyAbove)
        | _ => .ok (1, stars)
      else if state.previous != some '/'
          && !(state.inBraces && (state.previous == some ',' || state.previous == some '{')) then
        .ok (1, stars)
      else
        match rest with
        | [] => .ok (1, state.doubleStar .anyBelow)
        | '/' :: _ => .ok (2, state.doubleStar .anyBetween)
        | c :: _ =>
            if state.inBraces && (c == ',' || c == '}') then .ok (1, state.doubleStar .anyBelow)
            else .ok (1, stars)
  | _ => .ok (0, state.push .anyRun)

def extendLast (ranges : List (Char × Char)) (last : Char) : Except Cause (List (Char × Char)) :=
  match ranges with
  | (first, _) :: before => if last < first then .error (.invalidRange first last) else .ok ((first, last) :: before)
  | [] => .ok []

-- The ranges of a class up to its closing bracket, and how many characters they take. The ranges so far are in reverse;
-- `pending` says that a dash waits for the end of a range.
def readRanges (ranges : List (Char × Char)) (atFront pending : Bool) (count : Nat) :
    Text → Except Cause (List (Char × Char) × Nat)
  | [] => .error .unclosedClass
  | c :: rest =>
      if c = ']' ∧ atFront = false then
        .ok ((if pending then ('-', '-') :: ranges else ranges).reverse, count + 1)
      else if c = '-' ∧ atFront = false ∧ pending = false then readRanges ranges false true (count + 1) rest
      else if pending ∧ c ≠ ']' then
        match extendLast ranges c with
        | .ok ranges => readRanges ranges false false (count + 1) rest
        | .error cause => .error cause
      else readRanges ((c, c) :: ranges) false false (count + 1) rest

def readClass (dialect : Dialect) (state : State) (rest : Text) : Step :=
  let (negated, inner) := match rest with
    | '!' :: inner => (true, inner)
    | '^' :: inner => (true, inner)
    | _ => (false, rest)
  match readRanges [] true false (if negated then 1 else 0) inner with
  | .ok (ranges, count) => .ok (count, state.push (.byteClass negated ranges))
  | .error .unclosedClass =>
      if dialect.loneBrackets then .ok (0, { state.push (.literal '[') with literalBrackets := true })
      else .error .unclosedClass
  | .error cause => .error cause

def readEscape (state : State) (rest : Text) : Step :=
  match rest with
  | c :: _ => .ok (1, state.push (.literal c))
  | [] => .error .danglingEscape

def readChar (dialect : Dialect) (state : State) (c : Char) (rest : Text) : Step :=
  if c = '?' then .ok (0, state.push .anyByte)
  else if c = '*' then readStar state rest
  else if c = '[' ∧ state.literalBrackets = false then readClass dialect state rest
  else if c = '{' then .ok (0, state.openBraces)
  else if c = '}' then state.closeBraces.map fun state => (0, state)
  else if c = ',' then .ok (0, state.comma)
  else if c = '\x5c' then readEscape state rest
  else .ok (0, state.push (.literal c))

def readAll (dialect : Dialect) : Nat → State → Text → Except Cause State
  | _, state, [] => .ok state
  | busy + 1, state, c :: rest => readAll dialect busy { state with previous := some c } rest
  | 0, state, c :: rest =>
      match readChar dialect state c rest with
      | .ok (busy, state) => readAll dialect busy { state with previous := some c } rest
      | .error cause => .error cause

mutual
def Piece.isSilent : Piece → Bool
  | .alternatives branches => branchesSilent branches
  | _ => false

def allSilent : List Piece → Bool
  | [] => true
  | piece :: pieces => piece.isSilent && allSilent pieces

def branchesSilent : List (List Piece) → Bool
  | [] => true
  | branch :: branches => allSilent branch && branchesSilent branches
end

mutual
-- The piece without alternatives that are empty; one without any others stays as a piece that matches nothing.
def Piece.withoutSilent : Piece → Piece
  | .alternatives branches =>
      match branchesWithoutSilent branches with
      | [] => .alternatives [[]]
      | kept => .alternatives kept
  | piece => piece

def allWithoutSilent : List Piece → List Piece
  | [] => []
  | piece :: pieces => piece.withoutSilent :: allWithoutSilent pieces

def branchesWithoutSilent : List (List Piece) → List (List Piece)
  | [] => []
  | branch :: branches =>
      if allSilent branch then branchesWithoutSilent branches
      else allWithoutSilent branch :: branchesWithoutSilent branches
end

def read (dialect : Dialect) (source : Text) : Except Cause Glob :=
  match readAll dialect 0 .start source with
  | .error cause => .error cause
  | .ok state =>
      if state.inBraces then .error .unclosedBraces
      else
        let pieces := state.level.current.reverse
        .ok ⟨source, if dialect.emptyAlternatives then pieces else allWithoutSilent pieces⟩

end BlockSearch.Glob
