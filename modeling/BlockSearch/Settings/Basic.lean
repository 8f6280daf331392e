import BlockSearch.Block.Finder
import BlockSearch.Text.Decimal

set_option autoImplicit false

namespace BlockSearch

-- Sizes are in bytes.
structure Settings where
  -- Relative patterns start here, and paths are shown from here.
  root : Text
  workers : Nat
  maxFiles : Nat
  maxFileSize : Nat
  -- Levels below the directory in which a walk starts.
  maxDepth : Nat
  maxFindingsPerSymbol : Nat
  maxBlockSize : Nat
  maxColumn : Nat
  defaultLimit : Nat
  respectIgnoreFiles : Bool
  cacheSize : Nat
  debug : Bool
deriving DecidableEq, Repr

namespace Settings

def initial (root : Text) : Settings :=
  { root := root
    workers := 32
    maxFiles := 10000
    maxFileSize := 1048576
    maxDepth := 20
    maxFindingsPerSymbol := 50
    maxBlockSize := 20000
    maxColumn := 200
    defaultLimit := 5
    respectIgnoreFiles := true
    cacheSize := 64
    debug := false }

-- The bound on findings grows with the symbols, as far as a word can hold it, and is never zero.
def maxFindings (settings : Settings) (symbolCount : Nat) : Nat :=
  max (Decimal.saturate (settings.maxFindingsPerSymbol * max symbolCount 1)) 1

def limits (settings : Settings) : Block.Limits := ⟨settings.maxBlockSize, settings.maxColumn⟩

end Settings

end BlockSearch
