import BlockSearch.Text.Basic

/-!
What one symbol stands for. A star stands for a run of word characters, which may be empty; a symbol that is nothing
but stars stands for a run that is not. A side of the symbol that begins or ends with a star, an underscore, a
letter or a number has to lie on the edge of a word. Of several ways to match, each star prefers the longer run, the
stars to the left first.
-/

set_option autoImplicit false

namespace BlockSearch.Symbol

inductive Core where
  | anyWord
  -- Literal parts with runs of word characters between them.
  | parts (first : Text) (others : List Text)
deriving DecidableEq, Repr

structure Shape where
  leadingEdge : Bool
  core : Core
  trailingEdge : Bool
deriving DecidableEq, Repr

def wantsEdge (side : Option Char) : Bool :=
  match side with
  | some c => c == '*' || c == '_' || CharClass.isAlphanumeric c
  | none => false

def Core.ofSymbol (symbol : Text) : Core :=
  if symbol.all (· == '*') then .anyWord
  else match Text.pieces '*' symbol with
    | [] => .parts [] []
    | first :: others => .parts first others

def Shape.ofSymbol (symbol : Text) : Shape :=
  ⟨wantsEdge symbol.head?, Core.ofSymbol symbol, wantsEdge symbol.getLast?⟩

def isEdge (previous next : Option Char) : Bool := previous.any CharClass.isWord != next.any CharClass.isWord

-- A reader takes text from the front, knowing the character before it, and gives what it took and what is left.
abbrev Reader := Option Char → Text → Option (Text × Text)

namespace Reader

def done (edge : Bool) : Reader := fun previous text =>
  if edge && !isEdge previous text.head? then none else some ([], text)

def literal (part : Text) (next : Reader) : Reader := fun previous text =>
  match Text.afterLead part text with
  | some rest => (next (part.getLast?.or previous) rest).map fun (taken, left) => (part ++ taken, left)
  | none => none

-- Takes the longest run of word characters after which the rest can be read.
def run (next : Reader) : Reader
  | previous, [] => next previous []
  | previous, c :: rest =>
      if CharClass.isWord c then
        match run next (some c) rest with
        | some (taken, left) => some (c :: taken, left)
        | none => next previous (c :: rest)
      else next previous (c :: rest)

def word (next : Reader) : Reader := fun _ text =>
  match text with
  | c :: rest =>
      if CharClass.isWord c then (run next (some c) rest).map fun (taken, left) => (c :: taken, left) else none
  | [] => none

def runs (edge : Bool) : List Text → Reader
  | [] => done edge
  | part :: parts => run (literal part (runs edge parts))

end Reader

def Core.reader (edge : Bool) : Core → Reader
  | .anyWord => Reader.word (Reader.done edge)
  | .parts first others => Reader.literal first (Reader.runs edge others)

def Shape.read (shape : Shape) : Reader := fun previous text =>
  if shape.leadingEdge && !isEdge previous text.head? then none
  else shape.core.reader shape.trailingEdge previous text

def Reader.Cuts (reader : Reader) : Prop :=
  ∀ previous text taken left, reader previous text = some (taken, left) → text = taken ++ left

namespace Reader

theorem done_cuts (edge : Bool) : (done edge).Cuts := by
  intro previous text taken left found
  unfold done at found
  split at found
  · simp at found
  · simp only [Option.some.injEq, Prod.mk.injEq] at found
    rw [← found.1, ← found.2, List.nil_append]

theorem literal_cuts (part : Text) (next : Reader) (cuts : next.Cuts) : (literal part next).Cuts := by
  intro previous text taken left found
  unfold literal at found
  split at found
  · rename_i rest lead
    obtain ⟨⟨inner, last⟩, inside, same⟩ := Option.map_eq_some_iff.mp found
    simp only [Prod.mk.injEq] at same
    rw [Text.after_lead_eq part text rest lead, cuts _ _ _ _ inside, ← same.1, ← same.2, List.append_assoc]
  · simp at found

theorem run_cuts (next : Reader) (cuts : next.Cuts) : (run next).Cuts := by
  intro previous text
  induction text generalizing previous with
  | nil =>
      intro taken left found
      exact cuts previous [] taken left (by simpa only [run] using found)
  | cons c rest ih =>
      intro taken left found
      simp only [run] at found
      split at found
      · split at found
        · rename_i inner last inside
          simp only [Option.some.injEq, Prod.mk.injEq] at found
          rw [← found.1, ← found.2, List.cons_append, ← ih (some c) inner last inside]
        · exact cuts _ _ _ _ found
      · exact cuts _ _ _ _ found

theorem word_cuts (next : Reader) (cuts : next.Cuts) : (word next).Cuts := by
  intro previous text taken left found
  unfold word at found
  split at found
  · rename_i c rest
    split at found
    · obtain ⟨⟨inner, last⟩, inside, same⟩ := Option.map_eq_some_iff.mp found
      simp only [Prod.mk.injEq] at same
      rw [← same.1, ← same.2, List.cons_append, ← run_cuts next cuts _ _ _ _ inside]
    · simp at found
  · simp at found

theorem runs_cuts (edge : Bool) (parts : List Text) : (runs edge parts).Cuts := by
  induction parts with
  | nil => exact done_cuts edge
  | cons part parts ih => exact run_cuts _ (literal_cuts part _ ih)

end Reader

theorem Shape.read_cuts (shape : Shape) : Reader.Cuts shape.read := by
  intro previous text taken left found
  unfold Shape.read at found
  split at found
  · simp at found
  · cases core : shape.core with
    | anyWord =>
        rw [core] at found
        exact Reader.word_cuts _ (Reader.done_cuts _) previous text taken left found
    | parts first others =>
        rw [core] at found
        exact Reader.literal_cuts first _ (Reader.runs_cuts _ others) previous text taken left found

end BlockSearch.Symbol
