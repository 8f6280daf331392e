import BlockSearch.Symbol.Occurrence

set_option autoImplicit false

namespace BlockSearch.Symbol

structure Prepared where
  serial : Nat
  pattern : Pattern
deriving DecidableEq, Repr

-- The most recently used pattern comes first.
structure Cache where
  capacity : Nat
  recent : List Prepared
  made : Nat
deriving DecidableEq, Repr

-- What the library of patterns has to say against a list of which it makes none, such as one that is too large for it.
abbrev Refusal := List Text → Option Text

def Refusal.never : Refusal := fun _ => none

def Pattern.make (refuses : Refusal) (symbols : List Text) : Except Text Pattern :=
  match refuses symbols with
  | some reason => .error reason
  | none => .ok (ofSymbols symbols)

namespace Cache

def empty (capacity : Nat) : Cache := ⟨max capacity 1, [], 0⟩

def size (cache : Cache) : Nat := cache.recent.length

def find? (cache : Cache) (symbols : List Text) : Option Prepared :=
  cache.recent.find? fun prepared => prepared.pattern.symbols == symbols

def use (cache : Cache) (prepared : Prepared) : Cache :=
  { cache with
    recent := (prepared :: cache.recent.filter fun other =>
      other.pattern.symbols != prepared.pattern.symbols).take cache.capacity }

-- The kept pattern of exactly this list, or a new one.
def lookup (cache : Cache) (symbols : List Text) : Prepared × Cache :=
  match cache.find? symbols with
  | some prepared => (prepared, cache.use prepared)
  | none =>
      let prepared := ⟨cache.made, Pattern.ofSymbols symbols⟩
      (prepared, { cache.use prepared with made := cache.made + 1 })

-- The same where not every list makes a pattern. What cannot be made is not kept either.
def prepare (cache : Cache) (refuses : Refusal) (symbols : List Text) : Except Text Prepared × Cache :=
  match cache.find? symbols, Pattern.make refuses symbols with
  | none, .error reason => (.error reason, cache)
  | _, _ => (.ok (cache.lookup symbols).1, (cache.lookup symbols).2)

def run (cache : Cache) : List (List Text) → List (Prepared × Cache)
  | [] => []
  | symbols :: rest => cache.lookup symbols :: run (cache.lookup symbols).2 rest

end Cache

end BlockSearch.Symbol
