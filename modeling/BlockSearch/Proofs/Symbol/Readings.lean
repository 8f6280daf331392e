import BlockSearch.Proofs.Symbol.Placement

set_option autoImplicit false

namespace BlockSearch

namespace Symbol

namespace Reader

theorem reading_of_length (reader : Reader) (cuts : reader.Cuts) (previous : Option Char) (text : Text) (count : Nat)
    (length : lengthTaken (reader previous text) = some count) :
    reader previous text = some (text.take count, text.drop count) := by
  obtain ⟨⟨taken, left⟩, found, same⟩ := Option.map_eq_some_iff.mp length
  dsimp only at same
  rw [found, cuts _ _ _ _ found, ← same, List.take_left, List.drop_left]

theorem done_reads (edge : Bool) (previous : Option Char) (text taken left : Text)
    (found : done edge previous text = some (taken, left)) :
    taken = [] ∧ left = text ∧ (edge = true → isEdge previous text.head? = true) := by
  unfold done at found
  split at found
  · simp at found
  · rename_i edged
    simp only [Option.some.injEq, Prod.mk.injEq] at found
    refine ⟨found.1.symm, found.2.symm, fun wanted => ?_⟩
    simpa [wanted] using edged

theorem literal_reads (part : Text) (next : Reader) (previous : Option Char) (text taken left : Text)
    (found : literal part next previous text = some (taken, left)) :
    ∃ inner rest, text = part ++ rest ∧ next (part.getLast?.or previous) rest = some (inner, left) ∧
      taken = part ++ inner := by
  unfold literal at found
  split at found
  · rename_i rest lead
    obtain ⟨⟨inner, last⟩, inside, same⟩ := Option.map_eq_some_iff.mp found
    simp only [Prod.mk.injEq] at same
    exact ⟨inner, rest, Text.after_lead_eq part text rest lead, by rw [inside, same.2], same.1.symm⟩
  · simp at found

theorem word_reads (next : Reader) (previous : Option Char) (text taken left : Text)
    (found : word next previous text = some (taken, left)) :
    ∃ c rest inner, text = c :: rest ∧ CharClass.isWord c = true ∧ run next (some c) rest = some (inner, left) ∧
      taken = c :: inner := by
  cases text with
  | nil => simp [word] at found
  | cons c rest =>
      by_cases isWord : CharClass.isWord c = true
      · simp only [word, if_pos isWord] at found
        obtain ⟨⟨inner, last⟩, inside, same⟩ := Option.map_eq_some_iff.mp found
        simp only [Prod.mk.injEq] at same
        exact ⟨c, rest, inner, rfl, isWord, by rw [inside, same.2], same.1.symm⟩
      · simp [word, isWord] at found

theorem run_reads (next : Reader) (previous : Option Char) (text taken left : Text)
    (found : run next previous text = some (taken, left)) :
    ∃ front inner rest, text = front ++ rest ∧ (∀ c ∈ front, CharClass.isWord c = true) ∧
      next (front.getLast?.or previous) rest = some (inner, left) ∧ taken = front ++ inner := by
  induction text generalizing previous taken with
  | nil => exact ⟨[], taken, [], rfl, by simp, by simpa [run] using found, rfl⟩
  | cons c rest ih =>
      -- The run may end before this character.
      have stops (here : next previous (c :: rest) = some (taken, left)) :
          ∃ front inner behind, c :: rest = front ++ behind ∧ (∀ c ∈ front, CharClass.isWord c = true) ∧
            next (front.getLast?.or previous) behind = some (inner, left) ∧ taken = front ++ inner :=
        ⟨[], taken, c :: rest, rfl, by simp, by simpa using here, rfl⟩
      simp only [run] at found
      split at found
      · rename_i word
        split at found
        · rename_i inner last inside
          simp only [Option.some.injEq, Prod.mk.injEq] at found
          obtain ⟨rfl, rfl⟩ := found
          obtain ⟨front, others, behind, cut, words, reads, taken⟩ := ih (some c) inner inside
          refine ⟨c :: front, others, behind, by rw [cut, List.cons_append], ?_, ?_, by rw [taken, List.cons_append]⟩
          · simpa [word] using words
          · rw [← reads, Text.last_cons]
        · exact stops found
      · exact stops found

theorem runs_long (edge : Bool) (parts : List Text) (previous : Option Char) (text taken left : Text)
    (found : runs edge parts previous text = some (taken, left)) (part : Text) (member : part ∈ parts) :
    part.length ≤ taken.length := by
  induction parts generalizing previous text taken with
  | nil => exact absurd member List.not_mem_nil
  | cons first parts ih =>
      obtain ⟨front, behind, rest, -, -, literal, rfl⟩ := run_reads _ _ _ _ _ found
      obtain ⟨inner, last, -, others, rfl⟩ := literal_reads _ _ _ _ _ _ literal
      simp only [List.length_append]
      rcases List.mem_cons.mp member with rfl | later
      · omega
      · have long := ih _ _ _ others later
        omega

end Reader

theorem Shape.read_core (shape : Shape) (previous : Option Char) (text taken left : Text)
    (found : shape.read previous text = some (taken, left)) :
    shape.core.reader shape.trailingEdge previous text = some (taken, left) ∧
      (shape.leadingEdge = true → isEdge previous text.head? = true) := by
  unfold Shape.read at found
  split at found
  · simp at found
  · rename_i edged
    refine ⟨found, fun wanted => ?_⟩
    simpa [wanted] using edged

theorem Core.of_symbol_parts (symbol : Text) (some : symbol.all (· == '*') = false) :
    ∃ first others, Core.ofSymbol symbol = .parts first others ∧ Text.pieces '*' symbol = first :: others := by
  unfold Core.ofSymbol
  rw [if_neg (by simp [some])]
  cases cut : Text.pieces '*' symbol with
  | nil => exact absurd cut (Text.pieces_ne_nil '*' symbol)
  | cons first others => exact ⟨first, others, rfl, rfl⟩

theorem Core.of_symbol_takes (symbol : Text) (edge : Bool) (previous : Option Char) (text taken left : Text)
    (found : (Core.ofSymbol symbol).reader edge previous text = some (taken, left)) : taken ≠ [] := by
  by_cases stars : symbol.all (· == '*') = true
  · have word : Core.ofSymbol symbol = .anyWord := by rw [Core.ofSymbol, if_pos stars]
    rw [word] at found
    obtain ⟨c, rest, inner, -, -, -, rfl⟩ := Reader.word_reads _ previous _ _ _ found
    exact List.cons_ne_nil c inner
  · simp only [Bool.not_eq_true] at stars
    obtain ⟨first, others, core, cut⟩ := Core.of_symbol_parts symbol stars
    rw [core] at found
    obtain ⟨inner, rest, -, inside, rfl⟩ := Reader.literal_reads _ _ _ _ _ _ found
    -- A character that is no star stands in one of the parts, all of which are taken.
    obtain ⟨c, member, noStar⟩ := List.all_eq_false.mp stars
    rw [← Text.joined_pieces '*' symbol] at member
    rcases Text.mem_joined ['*'] c _ member with star | ⟨part, present, has⟩
    · exact absurd star (by simpa using noStar)
    · have some := List.length_pos_of_mem has
      intro nothing
      have none := congrArg List.length nothing
      simp only [List.length_append, List.length_nil] at none
      rw [cut] at present
      rcases List.mem_cons.mp present with rfl | later
      · omega
      · have long := Reader.runs_long _ _ _ _ _ _ inside part later
        omega

theorem Shape.of_symbol_takes (symbol : Text) (previous : Option Char) (text taken left : Text)
    (found : (Shape.ofSymbol symbol).read previous text = some (taken, left)) : taken ≠ [] :=
  Core.of_symbol_takes symbol _ _ _ _ _ (Shape.read_core _ _ _ _ _ found).1

theorem Pattern.read_eq (symbols : List Text) (nonempty : symbols ≠ []) (previous : Option Char) (text : Text) :
    (Pattern.ofSymbols symbols).read previous text =
      symbols.findSome? fun symbol => (Shape.ofSymbol symbol).read previous text := by
  cases symbols with
  | nil => exact absurd rfl nonempty
  | cons symbol others =>
      change ((symbol :: others).map Shape.ofSymbol).findSome? (fun shape => shape.read previous text) = _
      rw [List.findSome?_map]
      rfl

theorem Pattern.read_cuts (pattern : Pattern) : Reader.Cuts pattern.read := by
  intro previous text taken left found
  unfold Pattern.read at found
  split at found
  · simp only [Option.some.injEq, Prod.mk.injEq] at found
    rw [← found.1, ← found.2, List.nil_append]
  · obtain ⟨shape, -, reads⟩ := List.exists_of_findSome?_eq_some found
    exact shape.read_cuts _ _ _ _ reads

theorem Pattern.read_some (symbols : List Text) (nonempty : symbols ≠ []) (previous : Option Char)
    (text taken left : Text) (found : (Pattern.ofSymbols symbols).read previous text = some (taken, left)) :
    ∃ symbol ∈ symbols, (Shape.ofSymbol symbol).read previous text = some (taken, left) := by
  rw [Pattern.read_eq symbols nonempty] at found
  exact List.exists_of_findSome?_eq_some found

theorem Pattern.read_is_some (symbols : List Text) (symbol : Text) (member : symbol ∈ symbols) (previous : Option Char)
    (text : Text) (reads : ((Pattern.ofSymbols [symbol]).read previous text).isSome = true) :
    ((Pattern.ofSymbols symbols).read previous text).isSome = true := by
  obtain ⟨⟨taken, left⟩, found⟩ := Option.isSome_iff_exists.mp reads
  obtain ⟨same, here, single⟩ := Pattern.read_some [symbol] (List.cons_ne_nil _ _) _ _ _ _ found
  rw [List.mem_singleton.mp here] at single
  rw [Pattern.read_eq symbols (List.ne_nil_of_mem member), List.findSome?_isSome_iff]
  exact ⟨symbol, member, by rw [single, Option.isSome_some]⟩

structure Occurrence.Reads (reader : Reader) (previous : Option Char) (place : Place) (text skipped : Text)
    (occurrence : Occurrence) : Prop where
  whole : text = skipped ++ (occurrence.symbol ++ occurrence.rest)
  place : occurrence.place = place.after skipped
  reads : reader (skipped.getLast?.or previous) (occurrence.symbol ++ occurrence.rest) =
    some (occurrence.symbol, occurrence.rest)

theorem Occurrence.Reads.step {reader : Reader} {previous : Option Char} {place : Place} {text skipped : Text}
    {occurrence : Occurrence} (c : Char)
    (reads : occurrence.Reads reader (some c) (place.pass c) text skipped) :
    occurrence.Reads reader previous place (c :: text) (c :: skipped) where
  whole := by rw [reads.whole, List.cons_append]
  place := reads.place
  reads := by
    rw [← reads.reads, Text.last_cons]

-- The place behind the skipped characters lies behind the beginning of the occurrence and before its end, or at its
-- beginning.
def Occurrence.Covers (reader : Reader) (previous : Option Char) (place : Place) (text skipped : Text)
    (occurrence : Occurrence) : Prop :=
  ∃ front inside, skipped = front ++ inside ∧ occurrence.Reads reader previous place text front ∧
    (inside = [] ∨ inside.length < occurrence.symbol.length)

theorem Occurrence.Covers.step {reader : Reader} {previous : Option Char} {place : Place} {text skipped : Text}
    {occurrence : Occurrence} (c : Char)
    (covers : occurrence.Covers reader (some c) (place.pass c) text skipped) :
    occurrence.Covers reader previous place (c :: text) (c :: skipped) := by
  obtain ⟨front, inside, rfl, reads, ends⟩ := covers
  exact ⟨c :: front, inside, rfl, reads.step c, ends⟩

section Reading

variable (reader : Reader) (cuts : reader.Cuts)
include cuts

theorem taken_reads (previous : Option Char) (place : Place) (text : Text) (count : Nat)
    (length : lengthTaken (reader previous text) = some count) :
    Occurrence.Reads reader previous place text [] ⟨place, text.take count, text.drop count⟩ where
  whole := by simp
  place := rfl
  reads := by
    simp only [List.getLast?_nil, Option.none_or, List.take_append_drop]
    exact Reader.reading_of_length reader cuts previous text count length

theorem occurrences_from_read (busy : Nat) (previous : Option Char) (place : Place) (text : Text) (found : Occurrence)
    (member : found ∈ occurrencesFrom busy place (Takings.ofReader reader previous text) text) :
    ∃ skipped, found.Reads reader previous place text skipped := by
  induction text generalizing busy previous place with
  | nil =>
      cases busy with
      | succ busy => simp [occurrencesFrom] at member
      | zero =>
          simp only [occurrencesFrom, Takings.first_of_reader] at member
          split at member
          · rename_i count length
            rw [List.mem_singleton.mp member]
            exact ⟨[], by simpa using taken_reads reader cuts previous place [] count length⟩
          · simp at member
  | cons c others ih =>
      have further (left : Nat)
          (behind : found ∈ occurrencesFrom left (place.pass c) (Takings.ofReader reader (some c) others) others) :
          ∃ skipped, found.Reads reader previous place (c :: others) skipped := by
        obtain ⟨skipped, reads⟩ := ih left (some c) (place.pass c) behind
        exact ⟨c :: skipped, reads.step c⟩
      cases busy with
      | succ busy => exact further busy member
      | zero =>
          simp only [occurrencesFrom, Takings.first_of_reader] at member
          split at member
          · rename_i count length
            rcases List.mem_cons.mp member with here | behind
            · rw [here]
              exact ⟨[], taken_reads reader cuts previous place (c :: others) count length⟩
            · exact further _ behind
          · exact further 0 member

theorem covers_here (previous : Option Char) (place : Place) (text skipped : Text) (count : Nat)
    (length : lengthTaken (reader previous text) = some count) (inside : skipped = [] ∨ skipped.length < count) :
    Occurrence.Covers reader previous place text skipped ⟨place, text.take count, text.drop count⟩ := by
  have exact : (text.take count).length = count := by
    rw [Reader.reading_of_length reader cuts previous _ count length] at length
    exact Option.some.inj length
  exact ⟨[], skipped, rfl, taken_reads reader cuts previous place text count length, by simpa only [exact] using inside⟩

-- A place that can be read is covered by an occurrence.
theorem occurrences_from_cover (busy : Nat) (previous : Option Char) (place : Place) (text skipped rest : Text)
    (whole : text = skipped ++ rest) (idle : busy ≤ skipped.length)
    (reads : (reader (skipped.getLast?.or previous) rest).isSome = true) :
    ∃ found ∈ occurrencesFrom busy place (Takings.ofReader reader previous text) text,
      found.Covers reader previous place text skipped := by
  induction text generalizing busy previous place skipped with
  | nil =>
      obtain ⟨rfl, rfl⟩ := List.append_eq_nil_iff.mp whole.symm
      obtain rfl := Nat.le_zero.mp idle
      obtain ⟨⟨taken, left⟩, found⟩ := Option.isSome_iff_exists.mp reads
      have length : lengthTaken (reader previous []) = some taken.length := congrArg lengthTaken found
      refine ⟨⟨place, [], []⟩, ?_, by simpa using covers_here reader cuts previous place [] [] _ length (.inl rfl)⟩
      simp [occurrencesFrom, Takings.first_of_reader, length]
  | cons c others ih =>
      -- A place further on is found behind this character.
      have further (left : Nat) (behind : Text) (same : skipped = c :: behind) (late : left ≤ behind.length) :
          ∃ found ∈ occurrencesFrom left (place.pass c) (Takings.ofReader reader (some c) others) others,
            found.Covers reader previous place (c :: others) skipped := by
        subst same
        have later : (reader (behind.getLast?.or (some c)) rest).isSome = true := by
          rw [← reads, Text.last_cons]
        obtain ⟨found, member, covers⟩ :=
          ih left (some c) (place.pass c) behind (List.cons.inj whole).2 late later
        exact ⟨found, member, covers.step c⟩
      cases busy with
      | succ busy =>
          cases skipped with
          | nil => simp at idle
          | cons d behind =>
              obtain ⟨rfl, -⟩ := List.cons.inj whole
              exact further busy behind rfl (Nat.le_of_succ_le_succ idle)
      | zero =>
          simp only [occurrencesFrom, Takings.first_of_reader]
          split
          · rename_i count length
            by_cases inside : skipped = [] ∨ skipped.length < count
            · exact ⟨_, List.mem_cons_self, covers_here reader cuts previous place _ skipped count length inside⟩
            · obtain ⟨notHere, past⟩ := not_or.mp inside
              cases skipped with
              | nil => exact absurd rfl notHere
              | cons d behind =>
                  obtain ⟨rfl, -⟩ := List.cons.inj whole
                  rw [List.length_cons] at past
                  obtain ⟨found, member, covers⟩ := further (count - 1) behind rfl (by omega)
                  exact ⟨found, List.mem_cons_of_mem _ member, covers⟩
          · rename_i unread
            cases skipped with
            | nil =>
                rw [List.getLast?_nil, Option.none_or, ← List.nil_append rest, ← whole] at reads
                rw [Option.map_eq_none_iff.mp unread] at reads
                simp at reads
            | cons d behind =>
                obtain ⟨rfl, -⟩ := List.cons.inj whole
                exact further 0 behind rfl (Nat.zero_le _)

end Reading

theorem Pattern.occurrences_read (pattern : Pattern) (content : Text) (found : Occurrence)
    (member : found ∈ pattern.occurrences content) :
    ∃ before, found.Stands content before ∧
      pattern.read before.getLast? (found.symbol ++ found.rest) = some (found.symbol, found.rest) := by
  rw [Pattern.occurrences, pattern_takings_eq] at member
  obtain ⟨before, reads⟩ := occurrences_from_read pattern.read pattern.read_cuts 0 none .start content found member
  exact ⟨before, ⟨reads.whole, reads.place⟩, by simpa using reads.reads⟩

theorem Pattern.occurrences_cover (pattern : Pattern) (before rest : Text)
    (reads : (pattern.read before.getLast? rest).isSome = true) :
    ∃ found ∈ pattern.occurrences (before ++ rest), ∃ front inside, before = front ++ inside ∧
      found.Stands (before ++ rest) front ∧
      pattern.read front.getLast? (found.symbol ++ found.rest) = some (found.symbol, found.rest) ∧
      (inside = [] ∨ inside.length < found.symbol.length) := by
  rw [Pattern.occurrences, pattern_takings_eq]
  obtain ⟨found, member, front, inside, cut, reading, ends⟩ := occurrences_from_cover pattern.read pattern.read_cuts 0
    none .start (before ++ rest) before rest rfl (Nat.zero_le _) (by simpa using reads)
  exact ⟨found, member, front, inside, cut, ⟨reading.whole, reading.place⟩, by simpa using reading.reads, ends⟩

end Symbol

end BlockSearch
