import BlockSearch.Text.Basic

set_option autoImplicit false

namespace BlockSearch

structure Request where
  symbols : List Text
  paths : List Text
  limit : Option Nat
  compact : Bool
deriving DecidableEq, Repr

inductive RequestError where
  | noSymbol
  | emptySymbol
deriving DecidableEq, Repr

def RequestError.message : RequestError → Text
  | .noSymbol => "at least one symbol is required".toList
  | .emptySymbol => "symbols must not be empty strings".toList

namespace Request

def defaultPaths : List Text := [['.']]

def symbolSet (request : Request) : Except RequestError (List Text) :=
  let trimmed := request.symbols.map Text.trim
  if trimmed.isEmpty then .error .noSymbol
  else if trimmed.any List.isEmpty then .error .emptySymbol
  else .ok (Text.distinct trimmed)

def searchPaths (request : Request) : List Text :=
  let named := (request.paths.map Text.trim).filter fun path => !path.isEmpty
  if named.isEmpty then defaultPaths else named

def shownLimit (request : Request) (default : Nat) : Nat := max (request.limit.getD default) 1

def symbolList (list : Text) : List Text :=
  ((Text.pieces ',' list).map Text.trim).filter fun symbol => !symbol.isEmpty

end Request

end BlockSearch
