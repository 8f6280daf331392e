import BlockSearch.Proofs.Symbol.Readings
import BlockSearch.Proofs.Text.Search
import BlockSearch.Proofs.Text.Trimming

/-!
How much of a content the reading of a symbol depends on: on whether the character before it belongs to a word, and on
nothing from a character on that belongs to no word and to no symbol. Main statement: the occurrences of a content are
those in front of such a character, read as if the content ended there, and those behind it.
-/

set_option autoImplicit false

namespace BlockSearch

namespace Symbol

namespace Reader

-- What is taken in front of this tail is what is taken without it.
def StopsAt (tail : Text) (reader : Reader) : Prop :=
  ∀ previous text, reader previous (text ++ tail) =
    (reader previous text).map fun (taken, left) => (taken, left ++ tail)

section Stops

variable (tail : Text) (noWord : tail.head?.any CharClass.isWord = false)

include noWord in
theorem done_stops (edge : Bool) : (done edge).StopsAt tail := by
  intro previous text
  have same : isEdge previous (text ++ tail).head? = isEdge previous text.head? := by
    cases text with
    | nil => simp [isEdge, noWord]
    | cons c rest => rfl
  rw [done, done, same]
  split <;> rfl

theorem literal_stops (part : Text) (next : Reader) (free : ∀ c ∈ tail.head?, c ∉ part) (stops : next.StopsAt tail) :
    (literal part next).StopsAt tail := by
  intro previous text
  rw [literal, literal, Text.after_lead_tail part text tail free]
  cases Text.afterLead part text with
  | none => rfl
  | some rest =>
      have behind := stops (part.getLast?.or previous) rest
      simp only [Option.map_some, behind, Option.map_map]
      rfl

include noWord in
theorem run_stops (next : Reader) (stops : next.StopsAt tail) : (run next).StopsAt tail := by
  intro previous text
  induction text generalizing previous with
  | nil =>
      have here : run next previous tail = next previous tail := by
        cases tail with
        | nil => rfl
        | cons c rest =>
            have outside : CharClass.isWord c = false := by simpa using noWord
            simp [run, outside]
      rw [List.nil_append, here, run]
      exact stops previous []
  | cons c rest ih =>
      have behind := stops previous (c :: rest)
      simp only [List.cons_append] at behind
      simp only [List.cons_append, run, ih, behind]
      split
      · cases run next (some c) rest <;> rfl
      · rfl

include noWord in
theorem word_stops (next : Reader) (stops : next.StopsAt tail) : (word next).StopsAt tail := by
  intro previous text
  cases text with
  | nil =>
      cases tail with
      | nil => rfl
      | cons c rest =>
          have outside : CharClass.isWord c = false := by simpa using noWord
          simp [word, outside]
  | cons c rest =>
      simp only [List.cons_append, word, run_stops tail noWord next stops (some c) rest]
      split
      · simp only [Option.map_map]
        rfl
      · rfl

include noWord in
theorem runs_stops (edge : Bool) (parts : List Text) (free : ∀ part ∈ parts, ∀ c ∈ tail.head?, c ∉ part) :
    (runs edge parts).StopsAt tail := by
  induction parts with
  | nil => exact done_stops tail noWord edge
  | cons part parts ih =>
      have behind := ih fun other later => free other (List.mem_cons_of_mem _ later)
      exact run_stops tail noWord _ (literal_stops tail part _ (free part List.mem_cons_self) behind)

end Stops

-- Of the character before it, a reader sees only whether it belongs to a word.
def SeesWords (reader : Reader) : Prop :=
  ∀ a b text, a.any CharClass.isWord = b.any CharClass.isWord → reader a text = reader b text

theorem done_sees (edge : Bool) : (done edge).SeesWords := by
  intro a b text same
  rw [done, done, isEdge, isEdge, same]

theorem literal_sees (part : Text) (next : Reader) (sees : next.SeesWords) : (literal part next).SeesWords := by
  intro a b text same
  unfold literal
  cases Text.afterLead part text with
  | none => rfl
  | some rest =>
      have last : next (part.getLast?.or a) rest = next (part.getLast?.or b) rest := by
        cases part.getLast? with
        | none => exact sees a b rest same
        | some c => rfl
      simp only [last]

theorem run_sees (next : Reader) (sees : next.SeesWords) : (run next).SeesWords := by
  intro a b text same
  cases text with
  | nil => exact sees a b [] same
  | cons c rest => simp only [run, sees a b _ same]

theorem word_sees (next : Reader) : (word next).SeesWords := fun _ _ _ _ => rfl

theorem runs_sees (edge : Bool) (parts : List Text) : (runs edge parts).SeesWords := by
  induction parts with
  | nil => exact done_sees edge
  | cons part parts ih => exact run_sees _ (literal_sees part _ ih)

end Reader

structure Apart (symbols : List Text) (tail : Text) : Prop where
  noWord : tail.head?.any CharClass.isWord = false
  noSymbol : ∀ symbol ∈ symbols, ∀ c ∈ tail.head?, c ∉ symbol

theorem Core.of_symbol_stops (symbol tail : Text) (edge : Bool) (noWord : tail.head?.any CharClass.isWord = false)
    (free : ∀ c ∈ tail.head?, c ∉ symbol) : Reader.StopsAt tail ((Core.ofSymbol symbol).reader edge) := by
  by_cases stars : symbol.all (· == '*') = true
  · have word : Core.ofSymbol symbol = .anyWord := by rw [Core.ofSymbol, if_pos stars]
    rw [word]
    exact Reader.word_stops tail noWord _ (Reader.done_stops tail noWord edge)
  · obtain ⟨first, others, core, cut⟩ := Core.of_symbol_parts symbol (by simpa using stars)
    have inside : ∀ part ∈ first :: others, ∀ c ∈ tail.head?, c ∉ part := by
      intro part member c head has
      exact free c head (Text.mem_of_piece '*' c symbol part (cut ▸ member) has)
    rw [core]
    exact Reader.literal_stops tail first _ (inside first List.mem_cons_self)
      (Reader.runs_stops tail noWord edge others fun part later => inside part (List.mem_cons_of_mem _ later))

theorem Core.of_symbol_sees (symbol : Text) (edge : Bool) :
    Reader.SeesWords ((Core.ofSymbol symbol).reader edge) := by
  by_cases stars : symbol.all (· == '*') = true
  · have word : Core.ofSymbol symbol = .anyWord := by rw [Core.ofSymbol, if_pos stars]
    rw [word]
    exact Reader.word_sees _
  · obtain ⟨first, others, core, -⟩ := Core.of_symbol_parts symbol (by simpa using stars)
    rw [core]
    exact Reader.literal_sees first _ (Reader.runs_sees edge others)

theorem Shape.of_symbol_stops (symbol tail : Text) (noWord : tail.head?.any CharClass.isWord = false)
    (free : ∀ c ∈ tail.head?, c ∉ symbol) : Reader.StopsAt tail (Shape.ofSymbol symbol).read := by
  intro previous text
  have same : isEdge previous (text ++ tail).head? = isEdge previous text.head? := by
    cases text with
    | nil => simp [isEdge, noWord]
    | cons c rest => rfl
  rw [Shape.read, Shape.read, same]
  split
  · rfl
  · exact Core.of_symbol_stops symbol tail _ noWord free previous text

theorem Shape.of_symbol_sees (symbol : Text) : Reader.SeesWords (Shape.ofSymbol symbol).read := by
  intro a b text same
  rw [Shape.read, Shape.read, isEdge, isEdge, same]
  split
  · rfl
  · exact Core.of_symbol_sees symbol _ a b text same

theorem Shape.of_trimmed_nothing (symbol : Text) (trimmed : Text.trim symbol = symbol) (c : Char)
    (indent : CharClass.isIndent c = true) (previous : Option Char) (outside : previous.any CharClass.isWord = false)
    (text : Text) :
    (Shape.ofSymbol symbol).read previous (c :: text) = none := by
  apply Option.eq_none_iff_forall_ne_some.mpr
  intro ⟨taken, left⟩ found
  obtain ⟨core, leading⟩ := Shape.read_core _ _ _ _ _ found
  have noWord := CharClass.indent_is_no_word c indent
  by_cases stars : symbol.all (· == '*') = true
  · have word : Core.ofSymbol symbol = .anyWord := by rw [Core.ofSymbol, if_pos stars]
    change (Core.ofSymbol symbol).reader _ previous (c :: text) = some (taken, left) at core
    rw [word, Core.reader] at core
    obtain ⟨d, rest, inner, same, isWord, -, -⟩ := Reader.word_reads _ previous _ _ _ core
    rw [← (List.cons.inj same).1, noWord] at isWord
    cases isWord
  · obtain ⟨first, others, parts, cut⟩ := Core.of_symbol_parts symbol (by simpa using stars)
    cases symbol with
    | nil => exact absurd rfl stars
    | cons d symbol =>
        -- A star at its beginning wants the edge of a word, any other character is read as it is.
        have noStar : d ≠ '*' := by
          rintro rfl
          have edge := leading (by simp [Shape.ofSymbol, wantsEdge])
          simp [isEdge, outside, noWord] at edge
        have head := Text.pieces_head '*' (d :: symbol)
        rw [cut, List.head?_cons, Option.some.injEq, List.takeWhile_cons, if_pos (by simpa using noStar)] at head
        change (Core.ofSymbol (d :: symbol)).reader _ previous (c :: text) = some (taken, left) at core
        rw [parts, Core.reader] at core
        obtain ⟨inner, rest, whole, -, -⟩ := Reader.literal_reads _ _ _ _ _ _ core
        rw [head, List.cons_append] at whole
        have visible := Text.trimmed_head _ trimmed d rfl
        rw [← (List.cons.inj whole).1, CharClass.indent_is_blank c indent] at visible
        cases visible

section Pattern

variable (symbols : List Text) (nonempty : symbols ≠ [])
include nonempty

theorem Pattern.of_symbols_stop (tail : Text) (apart : Apart symbols tail) :
    Reader.StopsAt tail (Pattern.ofSymbols symbols).read := by
  intro previous text
  rw [Pattern.read_eq symbols nonempty, Pattern.read_eq symbols nonempty]
  obtain ⟨noWord, noSymbol⟩ := apart
  clear nonempty
  induction symbols with
  | nil => rfl
  | cons symbol symbols ih =>
      have here := Shape.of_symbol_stops symbol tail noWord (noSymbol symbol List.mem_cons_self) previous text
      have later := ih fun other member => noSymbol other (List.mem_cons_of_mem _ member)
      rw [List.findSome?_cons, List.findSome?_cons, here, later]
      cases (Shape.ofSymbol symbol).read previous text <;> rfl

theorem Pattern.of_symbols_see : Reader.SeesWords (Pattern.ofSymbols symbols).read := by
  intro a b text same
  rw [Pattern.read_eq symbols nonempty, Pattern.read_eq symbols nonempty]
  congr 1
  funext symbol
  exact Shape.of_symbol_sees symbol a b text same

theorem Pattern.of_symbols_nothing (previous : Option Char) : (Pattern.ofSymbols symbols).read previous [] = none := by
  cases found : (Pattern.ofSymbols symbols).read previous [] with
  | none => rfl
  | some cut =>
      obtain ⟨symbol, -, reads⟩ := Pattern.read_some symbols nonempty previous [] cut.1 cut.2 found
      have whole := Shape.read_cuts _ _ _ _ _ reads
      exact absurd (List.append_eq_nil_iff.mp whole.symm).1 (Shape.of_symbol_takes symbol _ _ _ _ reads)

theorem Pattern.of_symbols_single (single : ∀ symbol ∈ symbols, '\n' ∉ symbol) (previous : Option Char)
    (text taken left : Text) (found : (Pattern.ofSymbols symbols).read previous text = some (taken, left)) :
    '\n' ∉ taken := by
  intro member
  obtain ⟨front, more, rfl⟩ := List.append_of_mem member
  have whole := (Pattern.ofSymbols symbols).read_cuts _ _ _ _ found
  have apart : Apart symbols ('\n' :: (more ++ left)) := ⟨rfl, by simpa using single⟩
  have stops := Pattern.of_symbols_stop symbols nonempty _ apart previous front
  rw [List.append_assoc, List.cons_append] at whole
  rw [← whole, found] at stops
  -- So much would be taken from what stands before the newline alone.
  obtain ⟨⟨same, rest⟩, reads, cut⟩ := Option.map_eq_some_iff.mp stops.symm
  have short := congrArg List.length ((Pattern.ofSymbols symbols).read_cuts _ _ _ _ reads)
  rw [(Prod.mk.inj cut).1] at short
  simp only [List.length_append, List.length_cons] at short
  omega

theorem Pattern.of_trimmed_nothing (trimmed : ∀ symbol ∈ symbols, Text.trim symbol = symbol) (c : Char)
    (indent : CharClass.isIndent c = true) (previous : Option Char) (outside : previous.any CharClass.isWord = false)
    (text : Text) :
    (Pattern.ofSymbols symbols).read previous (c :: text) = none := by
  rw [Pattern.read_eq symbols nonempty, List.findSome?_eq_none_iff]
  intro symbol member
  exact Shape.of_trimmed_nothing symbol (trimmed symbol member) c indent previous outside text

end Pattern

def Occurrence.followedBy (tail : Text) (found : Occurrence) : Occurrence := { found with rest := found.rest ++ tail }

section Reading

variable (reader : Reader) (cuts : reader.Cuts)

include cuts in
theorem occurrences_from_append (tail : Text) (stops : reader.StopsAt tail)
    (nothing : ∀ previous, reader previous [] = none) (busy : Nat) (place : Place) (previous : Option Char)
    (text : Text) (inside : busy ≤ text.length) :
    occurrencesFrom busy place (Takings.ofReader reader previous (text ++ tail)) (text ++ tail) =
      (occurrencesFrom busy place (Takings.ofReader reader previous text) text).map (Occurrence.followedBy tail) ++
        occurrencesFrom 0 (place.after text) (Takings.ofReader reader (text.getLast?.or previous) tail) tail := by
  induction text generalizing busy place previous with
  | nil =>
      obtain rfl := Nat.le_zero.mp inside
      have none : occurrencesFrom 0 place (Takings.ofReader reader previous []) [] = [] := by
        simp [occurrencesFrom, Takings.first_of_reader, nothing, lengthTaken]
      rw [none]
      rfl
  | cons c others ih =>
      have last := Text.last_cons c others previous
      cases busy with
      | succ busy =>
          rw [last]
          exact ih busy (place.pass c) (some c) (Nat.le_of_succ_le_succ inside)
      | zero =>
          have same : lengthTaken (reader previous (c :: (others ++ tail))) =
              lengthTaken (reader previous (c :: others)) := by
            have front := stops previous (c :: others)
            rw [List.cons_append] at front
            rw [front]
            cases reader previous (c :: others) <;> rfl
          simp only [List.cons_append, occurrencesFrom, Takings.first_of_reader, same]
          rw [last]
          cases length : lengthTaken (reader previous (c :: others)) with
          | none => exact ih 0 (place.pass c) (some c) (Nat.zero_le _)
          | some taken =>
              have short : taken ≤ (c :: others).length := by
                have cut := Reader.reading_of_length reader cuts previous _ taken length
                rw [cut] at length
                have exact : ((c :: others).take taken).length = taken := Option.some.inj length
                rw [List.length_take] at exact
                omega
              have behind := ih (taken - 1) (place.pass c) (some c) (by rw [List.length_cons] at short; omega)
              have front : (c :: (others ++ tail)).take taken = (c :: others).take taken :=
                List.take_append_of_le_length short
              have back : (c :: (others ++ tail)).drop taken = (c :: others).drop taken ++ tail :=
                List.drop_append_of_le_length short
              simp only [Takings.ofReader, List.tail_cons, behind, front, back]
              rfl

theorem occurrences_from_front (Before : Option Char → Prop) (front rest : Text)
    (goesOn : ∀ c ∈ front, Before (some c))
    (nothing : ∀ c ∈ front, ∀ previous text, Before previous → reader previous (c :: text) = none)
    (place : Place) (previous : Option Char) (before : Before previous) :
    occurrencesFrom 0 place (Takings.ofReader reader previous (front ++ rest)) (front ++ rest) =
      occurrencesFrom 0 (place.after front) (Takings.ofReader reader (front.getLast?.or previous) rest) rest := by
  induction front generalizing place previous with
  | nil => rfl
  | cons c front ih =>
      have here : reader previous (c :: (front ++ rest)) = none :=
        nothing c List.mem_cons_self previous _ before
      simp only [List.cons_append, occurrencesFrom, Takings.first_of_reader, here, lengthTaken, Option.map_none]
      rw [Text.last_cons]
      exact ih (fun d member => goesOn d (List.mem_cons_of_mem _ member))
        (fun d member => nothing d (List.mem_cons_of_mem _ member)) (place.pass c) (some c)
        (goesOn c List.mem_cons_self)

theorem takings_see (sees : reader.SeesWords) (a b : Option Char) (text : Text)
    (same : a.any CharClass.isWord = b.any CharClass.isWord) :
    Takings.ofReader reader a text = Takings.ofReader reader b text := by
  cases text with
  | nil => simp only [Takings.ofReader, sees a b _ same]
  | cons c rest => simp only [Takings.ofReader, sees a b _ same]

theorem occurrences_from_moved (Moved : Place → Place → Prop)
    (passed : ∀ p q c, Moved p q → c ≠ '\n' → Moved (p.pass c) (q.pass c)) (busy : Nat) (p q : Place)
    (takings : Takings) (text : Text) (free : '\n' ∉ text) (moved : Moved p q) :
    List.Forall₂ (fun a b : Occurrence => b.symbol = a.symbol ∧ b.rest = a.rest ∧ '\n' ∉ a.rest ∧ Moved a.place b.place)
      (occurrencesFrom busy p takings text) (occurrencesFrom busy q takings text) := by
  induction text generalizing busy p q takings with
  | nil =>
      cases busy with
      | succ busy => exact .nil
      | zero =>
          simp only [occurrencesFrom]
          split
          · exact .cons ⟨rfl, rfl, List.not_mem_nil, moved⟩ .nil
          · exact .nil
  | cons c others ih =>
      obtain ⟨other, behind⟩ := not_or.mp (fun member => free (List.mem_cons.mpr member))
      have further (left : Nat) := ih left (p.pass c) (q.pass c) takings.tail behind (passed p q c moved (Ne.symm other))
      cases busy with
      | succ busy => exact further busy
      | zero =>
          simp only [occurrencesFrom]
          split
          · rename_i taken _
            exact .cons ⟨rfl, rfl, fun member => free (List.mem_of_mem_drop member), moved⟩ (further (taken - 1))
          · exact further 0

end Reading

def Pattern.occurrencesAt (pattern : Pattern) (place : Place) (text : Text) : List Occurrence :=
  occurrencesFrom 0 place (Takings.ofReader pattern.read place.previous text) text

theorem Pattern.occurrences_at_start (pattern : Pattern) (content : Text) :
    pattern.occurrences content = pattern.occurrencesAt .start content := by
  rw [Pattern.occurrences, pattern_takings_eq]
  rfl

section Symbols

variable (symbols : List Text) (nonempty : symbols ≠ [])
include nonempty

theorem Pattern.occurrences_at_append (tail : Text) (apart : Apart symbols tail) (place : Place) (text : Text) :
    (Pattern.ofSymbols symbols).occurrencesAt place (text ++ tail) =
      ((Pattern.ofSymbols symbols).occurrencesAt place text).map (Occurrence.followedBy tail) ++
        (Pattern.ofSymbols symbols).occurrencesAt (place.after text) tail := by
  have divided := occurrences_from_append _ (Pattern.ofSymbols symbols).read_cuts tail
    (Pattern.of_symbols_stop symbols nonempty tail apart) (Pattern.of_symbols_nothing symbols nonempty) 0 place
    place.previous text (Nat.zero_le _)
  rw [← Place.after_previous] at divided
  exact divided

theorem Pattern.occurrences_at_apart (front rest : Text)
    (apart : ∀ c ∈ front, CharClass.isWord c = false ∧ ∀ symbol ∈ symbols, c ∉ symbol) (place : Place) :
    (Pattern.ofSymbols symbols).occurrencesAt place (front ++ rest) =
      (Pattern.ofSymbols symbols).occurrencesAt (place.after front) rest := by
  have nothing : ∀ c ∈ front, ∀ previous text, True →
      (Pattern.ofSymbols symbols).read previous (c :: text) = none := by
    intro c member previous text _
    obtain ⟨outside, free⟩ := apart c member
    have stops := Pattern.of_symbols_stop symbols nonempty (c :: text)
      ⟨by simpa using outside, fun symbol present => by simpa using free symbol present⟩ previous []
    rwa [Pattern.of_symbols_nothing symbols nonempty] at stops
  have passed := occurrences_from_front (Pattern.ofSymbols symbols).read (fun _ => True) front rest (fun _ _ => trivial)
    nothing place place.previous trivial
  rw [← Place.after_previous] at passed
  exact passed

-- A gap that belongs to no word and to no symbol divides a content.
theorem Pattern.occurrences_at_gap (gap : Text) (some : gap ≠ [])
    (apart : ∀ c ∈ gap, CharClass.isWord c = false ∧ ∀ symbol ∈ symbols, c ∉ symbol) (place : Place) (text rest : Text) :
    (Pattern.ofSymbols symbols).occurrencesAt place (text ++ (gap ++ rest)) =
      ((Pattern.ofSymbols symbols).occurrencesAt place text).map (Occurrence.followedBy (gap ++ rest)) ++
        (Pattern.ofSymbols symbols).occurrencesAt ((place.after text).after gap) rest := by
  obtain ⟨c, others, rfl⟩ := List.exists_cons_of_ne_nil some
  obtain ⟨outside, free⟩ := apart c List.mem_cons_self
  have tail : Apart symbols (c :: others ++ rest) := ⟨by simpa using outside, by simpa using free⟩
  rw [Pattern.occurrences_at_append symbols nonempty _ tail, Pattern.occurrences_at_apart symbols nonempty _ rest apart]

omit nonempty in
theorem Pattern.occurrences_single (single : ∀ symbol ∈ symbols, '\n' ∉ symbol) (content : Text) (found : Occurrence)
    (member : found ∈ (Pattern.ofSymbols symbols).occurrences content) : '\n' ∉ found.symbol := by
  obtain ⟨before, -, reads⟩ := Pattern.occurrences_read _ content found member
  by_cases nonempty : symbols = []
  · subst nonempty
    have nothing : found.symbol = [] := (Prod.mk.inj (Option.some.inj reads)).1.symm
    exact nothing ▸ List.not_mem_nil
  · exact Pattern.of_symbols_single symbols nonempty single _ _ _ _ reads

end Symbols

end Symbol

end BlockSearch
