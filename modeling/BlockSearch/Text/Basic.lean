import BlockSearch.Text.CharClass

set_option autoImplicit false

namespace BlockSearch

abbrev Text := List Char

abbrev Bytes := List UInt8

namespace Text

def utf8 (text : Text) : Bytes := text.flatMap String.utf8EncodeChar

def size (text : Text) : Nat := text.foldr (fun c bytes => c.utf8Size + bytes) 0

def ofNat (n : Nat) : Text := (toString n).toList

def ofInt (n : Int) : Text := (toString n).toList

-- Cuts at every separator; always at least one piece.
def piecesBy (separates : Char → Bool) : Text → List Text
  | [] => [[]]
  | c :: rest =>
      if separates c then [] :: piecesBy separates rest
      else match piecesBy separates rest with
        | [] => [[c]]
        | piece :: others => (c :: piece) :: others

def pieces (separator : Char) (text : Text) : List Text := piecesBy (· == separator) text

def joined (separator : Text) (parts : List Text) : Text := separator.intercalate parts

def afterLead : Text → Text → Option Text
  | [], text => some text
  | _ :: _, [] => none
  | c :: lead, d :: text => if c = d then afterLead lead text else none

def startsWith (lead text : Text) : Bool := (afterLead lead text).isSome

def beforeTail (tail text : Text) : Option Text :=
  (afterLead tail.reverse text.reverse).map List.reverse

def endsWith (tail text : Text) : Bool := (beforeTail tail text).isSome

def dropEndWhile (p : Char → Bool) (text : Text) : Text := (text.reverse.dropWhile p).reverse

def trimStart (text : Text) : Text := text.dropWhile CharClass.isBlank

def trimEnd (text : Text) : Text := dropEndWhile CharClass.isBlank text

def trim (text : Text) : Text := trimEnd (trimStart text)

def isBlankLine (line : Text) : Bool := line.all CharClass.isBlank

def indentation (line : Text) : Text := line.takeWhile CharClass.isIndent

def splitAtFirst (mark : Text) : Text → Option (Text × Text)
  | [] => none
  | c :: rest =>
      match afterLead mark (c :: rest) with
      | some back => some ([], back)
      | none => (splitAtFirst mark rest).map fun (front, back) => (c :: front, back)

def splitAtLast (mark : Text) : Text → Option (Text × Text)
  | [] => none
  | c :: rest =>
      match splitAtLast mark rest with
      | some (front, back) => some (c :: front, back)
      | none => (afterLead mark (c :: rest)).map fun back => ([], back)

-- Lines as an editor shows them: a line ends with a newline, with or without a carriage return before it, and an empty
-- rest after the last newline is no line.
def shownLines (text : Text) : List Text := ended (pieces '\n' text)
where
  ended : List Text → List Text
    | [] => []
    | [last] => if last.isEmpty then [] else [last]
    | line :: rest => (beforeTail ['\r'] line).getD line :: ended rest

def mentions (mark text : Text) : Bool := (splitAtFirst mark text).isSome

def distinct (texts : List Text) : List Text :=
  (texts.foldl (fun kept text => if kept.contains text then kept else text :: kept) []).reverse

theorem after_lead_append (lead text : Text) : afterLead lead (lead ++ text) = some text := by
  induction lead with
  | nil => rfl
  | cons c lead ih => simpa [afterLead] using ih

theorem after_lead_eq (lead text rest : Text) (found : afterLead lead text = some rest) :
    text = lead ++ rest := by
  induction lead generalizing text with
  | nil => simpa [afterLead] using found
  | cons c lead ih =>
      cases text with
      | nil => simp [afterLead] at found
      | cons d text =>
          by_cases same : c = d
          · simp only [afterLead, if_pos same] at found
            rw [ih text found, same, List.cons_append]
          · simp [afterLead, same] at found

theorem before_tail_append (tail text : Text) : beforeTail tail (text ++ tail) = some text := by
  rw [beforeTail, List.reverse_append, after_lead_append, Option.map_some, List.reverse_reverse]

theorem before_tail_eq (tail text front : Text) (found : beforeTail tail text = some front) : text = front ++ tail := by
  obtain ⟨rest, lead, rfl⟩ := Option.map_eq_some_iff.mp found
  have whole := after_lead_eq tail.reverse text.reverse rest lead
  rw [← List.reverse_reverse text, whole, List.reverse_append, List.reverse_reverse]

theorem pieces_by_ne_nil (separates : Char → Bool) (text : Text) : piecesBy separates text ≠ [] := by
  cases text with
  | nil => simp [piecesBy]
  | cons c rest =>
      simp only [piecesBy]
      split
      · simp
      · split <;> simp

theorem split_at_first_eq (mark text front back : Text) (found : splitAtFirst mark text = some (front, back)) :
    text = front ++ (mark ++ back) := by
  induction text generalizing front with
  | nil => simp [splitAtFirst] at found
  | cons c rest ih =>
      simp only [splitAtFirst] at found
      split at found
      · rename_i after lead
        simp only [Option.some.injEq, Prod.mk.injEq] at found
        rw [← found.1, ← found.2, List.nil_append]
        exact after_lead_eq mark (c :: rest) after lead
      · obtain ⟨⟨inner, last⟩, inside, same⟩ := Option.map_eq_some_iff.mp found
        simp only [Prod.mk.injEq] at same
        rw [← same.1, List.cons_append, ih inner (by rw [inside, same.2])]

theorem split_at_last_eq (mark text front back : Text) (found : splitAtLast mark text = some (front, back)) :
    text = front ++ mark ++ back := by
  induction text generalizing front with
  | nil => cases found
  | cons c rest ih =>
      rw [splitAtLast] at found
      cases later : splitAtLast mark rest with
      | some cut =>
          obtain ⟨before, behind⟩ := cut
          rw [later] at found
          cases found
          rw [ih before later]
          rfl
      | none =>
          simp only [later, Option.map_eq_some_iff, Prod.mk.injEq] at found
          obtain ⟨_, lead, rfl, rfl⟩ := found
          exact after_lead_eq mark (c :: rest) _ lead

theorem size_cons (c : Char) (rest : Text) : size (c :: rest) = c.utf8Size + size rest := rfl

theorem size_append (a b : Text) : size (a ++ b) = size a + size b := by
  induction a with
  | nil => simp [size]
  | cons c rest ih =>
      rw [List.cons_append, size_cons, size_cons, ih, Nat.add_assoc]

end Text

end BlockSearch
