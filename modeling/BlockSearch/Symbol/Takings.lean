import BlockSearch.Symbol.Shape

set_option autoImplicit false

namespace BlockSearch.Symbol

-- How many characters are taken, at each place from the front of a text to its end, if it can be read there.
abbrev Takings := List (Option Nat)

def lengthTaken (found : Option (Text × Text)) : Option Nat := found.map fun (taken, _) => taken.length

namespace Takings

def ofReader (reader : Reader) (previous : Option Char) : Text → Takings
  | [] => [lengthTaken (reader previous [])]
  | c :: rest => lengthTaken (reader previous (c :: rest)) :: ofReader reader (some c) rest

def first (takings : Takings) : Option Nat := takings.headD none

def done (edge : Bool) (previous : Option Char) : Text → Takings
  | [] => [if edge && !isEdge previous none then none else some 0]
  | c :: rest => (if edge && !isEdge previous (some c) then none else some 0) :: done edge (some c) rest

def literal (part : Text) : Text → Takings → Takings
  | [], next => [if part.isEmpty then next.first else none]
  | c :: rest, next =>
      (match Text.afterLead part (c :: rest) with
        | some _ => (first (next.drop part.length)).map (part.length + ·)
        | none => none) :: literal part rest next.tail

-- At a word character the run is longer by one than at the place behind it, if it can be read from there.
def run : Text → Takings → Takings
  | [], next => [next.first]
  | c :: rest, next =>
      let inner := run rest next.tail
      (if CharClass.isWord c then (inner.first.map (· + 1)).or next.first else next.first) :: inner

def word : Text → Takings → Takings
  | [], _ => [none]
  | c :: rest, inner =>
      (if CharClass.isWord c then (first inner.tail).map (· + 1) else none) :: word rest inner.tail

def runs (edge : Bool) (previous : Option Char) (text : Text) : List Text → Takings
  | [] => done edge previous text
  | part :: parts => run text (literal part text (runs edge previous text parts))

def core (edge : Bool) (previous : Option Char) (text : Text) : Core → Takings
  | .anyWord => word text (run text (done edge previous text))
  | .parts first others => literal first text (runs edge previous text others)

def onEdge (previous : Option Char) : Text → Takings → Takings
  | [], takings => [if isEdge previous none then takings.first else none]
  | c :: rest, takings =>
      (if isEdge previous (some c) then takings.first else none) :: onEdge (some c) rest takings.tail

def shape (shape : Shape) (previous : Option Char) (text : Text) : Takings :=
  let takings := core shape.trailingEdge previous text shape.core
  if shape.leadingEdge then onEdge previous text takings else takings

def shapes (previous : Option Char) (text : Text) : List Shape → Takings
  | [] => ofReader (fun _ _ => none) previous text
  | next :: others => List.zipWith Option.or (shape next previous text) (shapes previous text others)

theorem first_of_reader (reader : Reader) (previous : Option Char) (text : Text) :
    first (ofReader reader previous text) = lengthTaken (reader previous text) := by
  cases text <;> rfl

theorem done_of_reader (edge : Bool) (previous : Option Char) (text : Text) :
    done edge previous text = ofReader (Reader.done edge) previous text := by
  induction text generalizing previous with
  | nil =>
      simp only [done, ofReader, Reader.done, List.head?_nil]
      split <;> rename_i edged <;> simp [edged, lengthTaken]
  | cons c rest ih =>
      simp only [done, ofReader, Reader.done, List.head?_cons, ih]
      split <;> rename_i edged <;> simp [edged, lengthTaken]

theorem length_append (part : Text) (found : Option (Text × Text)) :
    lengthTaken (found.map fun (taken, left) => (part ++ taken, left)) =
      (lengthTaken found).map (part.length + ·) := by
  cases found <;> simp [lengthTaken]

theorem length_cons (c : Char) (found : Option (Text × Text)) :
    lengthTaken (found.map fun (taken, left) => (c :: taken, left)) = (lengthTaken found).map (· + 1) := by
  cases found <;> simp [lengthTaken]

theorem first_drop_of_reader (reader : Reader) (part : Text) (previous : Option Char) (text rest : Text)
    (lead : Text.afterLead part text = some rest) :
    first ((ofReader reader previous text).drop part.length) =
      lengthTaken (reader (part.getLast?.or previous) rest) := by
  induction part generalizing previous text with
  | nil =>
      simp only [Text.afterLead, Option.some.injEq] at lead
      simp [lead, first_of_reader]
  | cons c part ih =>
      cases text with
      | nil => simp [Text.afterLead] at lead
      | cons d text =>
          by_cases same : c = d
          · simp only [Text.afterLead, if_pos same] at lead
            have behind := ih (some d) text lead
            simp only [ofReader, List.length_cons, List.drop_succ_cons, behind]
            cases part with
            | nil => simp [same]
            | cons e part => simp [List.getLast?_cons]
          · simp [Text.afterLead, same] at lead

theorem literal_of_reader (part : Text) (next : Reader) (previous : Option Char) (text : Text) :
    literal part text (ofReader next previous text) = ofReader (Reader.literal part next) previous text := by
  induction text generalizing previous with
  | nil =>
      cases part with
      | nil => simp [literal, ofReader, Reader.literal, Text.afterLead, first, lengthTaken]
      | cons c part => simp [literal, ofReader, Reader.literal, Text.afterLead, lengthTaken]
  | cons c rest ih =>
      have inner := ih (some c)
      simp only [literal]
      simp only [ofReader, List.tail_cons, inner, List.cons.injEq, and_true]
      cases lead : Text.afterLead part (c :: rest) with
      | none => simp [Reader.literal, lead, lengthTaken]
      | some left =>
          have behind := first_drop_of_reader next part previous (c :: rest) left lead
          simp only [ofReader] at behind
          simp only [behind, Reader.literal, lead, length_append]

theorem run_of_reader (next : Reader) (previous : Option Char) (text : Text) :
    run text (ofReader next previous text) = ofReader (Reader.run next) previous text := by
  induction text generalizing previous with
  | nil => rfl
  | cons c rest ih =>
      simp only [run, ofReader, List.tail_cons, ih, first_of_reader]
      simp only [first, List.headD_cons, List.cons.injEq, and_true, Reader.run]
      by_cases word : CharClass.isWord c = true
      · simp only [word, if_true]
        cases Reader.run next (some c) rest <;> simp [lengthTaken]
      · simp [word]

theorem word_of_reader (next : Reader) (previous : Option Char) (text : Text) :
    word text (ofReader (Reader.run next) previous text) = ofReader (Reader.word next) previous text := by
  induction text generalizing previous with
  | nil => rfl
  | cons c rest ih =>
      simp only [word, ofReader, List.tail_cons, ih, first_of_reader, List.cons.injEq, and_true, Reader.word]
      by_cases word : CharClass.isWord c = true
      · simp only [word, if_true, length_cons]
      · simp [word, lengthTaken]

theorem runs_of_reader (edge : Bool) (previous : Option Char) (text : Text) (parts : List Text) :
    runs edge previous text parts = ofReader (Reader.runs edge parts) previous text := by
  induction parts with
  | nil => exact done_of_reader edge previous text
  | cons part parts ih => rw [runs, ih, literal_of_reader, run_of_reader, Reader.runs]

theorem core_of_reader (edge : Bool) (previous : Option Char) (text : Text) (symbol : Core) :
    core edge previous text symbol = ofReader (symbol.reader edge) previous text := by
  cases symbol with
  | anyWord => rw [core, done_of_reader, run_of_reader, word_of_reader, Core.reader]
  | parts first others => rw [core, runs_of_reader, literal_of_reader, Core.reader]

theorem on_edge_of_reader (reader : Reader) (previous : Option Char) (text : Text) :
    onEdge previous text (ofReader reader previous text) =
      ofReader (fun previous text => if isEdge previous text.head? then reader previous text else none)
        previous text := by
  induction text generalizing previous with
  | nil =>
      simp only [onEdge, ofReader, first, List.headD_cons, List.head?_nil]
      split <;> rename_i edged <;> simp [edged, lengthTaken]
  | cons c rest ih =>
      simp only [onEdge, ofReader, first, List.headD_cons, List.tail_cons, ih, List.head?_cons]
      split <;> rename_i edged <;> simp [edged, lengthTaken]

theorem shape_of_reader (symbol : Shape) (previous : Option Char) (text : Text) :
    shape symbol previous text = ofReader symbol.read previous text := by
  unfold shape
  simp only [core_of_reader]
  by_cases edge : symbol.leadingEdge = true
  · rw [if_pos edge, on_edge_of_reader]
    congr 1
    funext previous text
    simp only [Shape.read, edge, Bool.true_and, Bool.not_eq_true']
    by_cases onEdge : isEdge previous text.head? = true
    · simp [onEdge]
    · simp [onEdge]
  · rw [if_neg edge]
    congr 1
    funext previous text
    simp [Shape.read, edge]

theorem zip_of_reader (a b : Reader) (previous : Option Char) (text : Text) :
    List.zipWith Option.or (ofReader a previous text) (ofReader b previous text) =
      ofReader (fun previous text => (a previous text).or (b previous text)) previous text := by
  have either (x y : Option (Text × Text)) : (lengthTaken x).or (lengthTaken y) = lengthTaken (x.or y) := by
    cases x <;> rfl
  induction text generalizing previous with
  | nil => simp [ofReader, either]
  | cons c rest ih => simp [ofReader, either, ih]

theorem shapes_of_reader (previous : Option Char) (text : Text) (symbols : List Shape) :
    shapes previous text symbols =
      ofReader (fun previous text => symbols.findSome? fun symbol => symbol.read previous text) previous text := by
  induction symbols with
  | nil => rfl
  | cons symbol symbols ih =>
      rw [shapes, ih, shape_of_reader, zip_of_reader]
      congr 1
      funext previous text
      rw [List.findSome?_cons]
      cases symbol.read previous text <;> rfl

end Takings

end BlockSearch.Symbol
