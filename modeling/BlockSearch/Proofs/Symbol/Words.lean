import BlockSearch.Proofs.Symbol.Readings

set_option autoImplicit false

namespace BlockSearch.Symbol

def isOfWords (symbol : Text) : Bool :=
  symbol.all (fun c => c == '*' || CharClass.isWord c) && wantsEdge symbol.head? && wantsEdge symbol.getLast?

-- The test above, a side at a time.
structure OfWords (symbol : Text) : Prop where
  chars : ∀ c ∈ symbol, c = '*' ∨ CharClass.isWord c = true
  leading : wantsEdge symbol.head? = true
  trailing : wantsEdge symbol.getLast? = true

theorem of_words_iff (symbol : Text) : isOfWords symbol = true ↔ OfWords symbol := by
  simp only [isOfWords, Bool.and_eq_true, List.all_eq_true, Bool.or_eq_true, beq_iff_eq]
  exact ⟨fun ⟨⟨chars, leading⟩, trailing⟩ => ⟨chars, leading, trailing⟩,
    fun words => ⟨⟨words.chars, words.leading⟩, words.trailing⟩⟩

structure WholeWord (previous : Option Char) (taken left : Text) : Prop where
  word : ∀ c ∈ taken, CharClass.isWord c = true
  before : previous.any CharClass.isWord = false
  behind : left.head?.any CharClass.isWord = false

namespace Reader

-- What is taken up to an edge that the end of a symbol wants.
structure Ends (previous : Option Char) (taken left : Text) : Prop where
  word : ∀ c ∈ taken, CharClass.isWord c = true
  edge : isEdge (taken.getLast?.or previous) left.head? = true

theorem Ends.behind {previous : Option Char} {front inner left : Text}
    (word : ∀ c ∈ front, CharClass.isWord c = true) (ends : Ends (front.getLast?.or previous) inner left) :
    Ends previous (front ++ inner) left where
  word := by
    intro c member
    rcases List.mem_append.mp member with here | later
    · exact word c here
    · exact ends.word c later
  edge := by
    rw [List.getLast?_append, Option.or_assoc]
    exact ends.edge

theorem done_ends (previous : Option Char) (text taken left : Text)
    (found : done true previous text = some (taken, left)) : Ends previous taken left := by
  obtain ⟨rfl, rfl, edge⟩ := done_reads _ _ _ _ _ found
  exact ⟨by simp, by simpa using edge rfl⟩

theorem runs_ends (parts : List Text) (words : ∀ part ∈ parts, ∀ c ∈ part, CharClass.isWord c = true)
    (previous : Option Char) (text taken left : Text) (found : runs true parts previous text = some (taken, left)) :
    Ends previous taken left := by
  induction parts generalizing previous text taken with
  | nil => exact done_ends previous text taken left found
  | cons part parts ih =>
      obtain ⟨front, inner, rest, -, word, literal, rfl⟩ := run_reads _ _ _ _ _ found
      obtain ⟨others, last, -, runs, rfl⟩ := literal_reads _ _ _ _ _ _ literal
      have behind := ih (fun other later => words other (List.mem_cons_of_mem _ later)) _ _ _ runs
      exact .behind word (.behind (words part List.mem_cons_self) behind)

end Reader

theorem Core.of_words_ends (symbol : Text) (words : OfWords symbol) (previous : Option Char) (text taken left : Text)
    (found : (Core.ofSymbol symbol).reader true previous text = some (taken, left)) :
    Reader.Ends previous taken left := by
  by_cases stars : symbol.all (· == '*') = true
  · have word : Core.ofSymbol symbol = .anyWord := by rw [Core.ofSymbol, if_pos stars]
    rw [word] at found
    obtain ⟨c, rest, inner, -, isWord, run, rfl⟩ := Reader.word_reads _ previous _ _ _ found
    obtain ⟨front, others, last, -, word, done, rfl⟩ := Reader.run_reads _ _ _ _ _ run
    have behind := (Reader.done_ends _ _ _ _ done).behind word
    have first : ∀ d ∈ [c], CharClass.isWord d = true := by simpa using isWord
    exact Reader.Ends.behind first behind
  · obtain ⟨first, others, core, cut⟩ := Core.of_symbol_parts symbol (by simpa using stars)
    have parts : ∀ part ∈ first :: others, ∀ c ∈ part, CharClass.isWord c = true := by
      intro part member c inside
      rw [← cut] at member
      rcases words.chars c (Text.mem_of_piece '*' c symbol part member inside) with star | word
      · exact absurd (star ▸ inside) (Text.piece_free '*' symbol part member)
      · exact word
    rw [core] at found
    obtain ⟨inner, rest, -, runs, rfl⟩ := Reader.literal_reads _ _ _ _ _ _ found
    have behind := Reader.runs_ends others (fun part later => parts part (List.mem_cons_of_mem _ later)) _ _ _ _ runs
    exact behind.behind (parts first List.mem_cons_self)

theorem Shape.of_words_whole (symbol : Text) (words : OfWords symbol) (previous : Option Char) (text taken left : Text)
    (found : (Shape.ofSymbol symbol).read previous text = some (taken, left)) : WholeWord previous taken left := by
  have takes := Shape.of_symbol_takes symbol previous text taken left found
  obtain ⟨core, leading⟩ := Shape.read_core _ _ _ _ _ found
  have edge : isEdge previous text.head? = true := leading words.leading
  rw [show (Shape.ofSymbol symbol).trailingEdge = true from words.trailing] at core
  have ends := Core.of_words_ends symbol words previous text taken left core
  have cut := Shape.read_cuts _ _ _ _ _ found
  -- Both edges lie at a word character of what is taken, so what is on the other side of them is none.
  refine ⟨ends.word, ?_, ?_⟩
  · obtain ⟨c, rest, rfl⟩ := List.exists_cons_of_ne_nil takes
    simpa [isEdge, cut, ends.word c List.mem_cons_self] using edge
  · obtain ⟨front, c, rfl⟩ := List.eq_nil_or_concat taken |>.resolve_left takes
    simpa [isEdge, ends.word c (by simp)] using ends.edge

theorem WholeWord.eq_run {previous : Option Char} {taken left : Text} (whole : WholeWord previous taken left) :
    taken = (taken ++ left).takeWhile CharClass.isWord := by
  have stops : left.takeWhile CharClass.isWord = [] := by
    cases left with
    | nil => rfl
    | cons c rest =>
        rw [List.takeWhile_cons_of_neg]
        simpa using whole.behind
  rw [List.takeWhile_append_of_pos whole.word, stops, List.append_nil]

theorem Pattern.of_words_whole (symbols : List Text) (nonempty : symbols ≠ [])
    (words : ∀ symbol ∈ symbols, isOfWords symbol = true) (previous : Option Char) (text taken left : Text)
    (found : (Pattern.ofSymbols symbols).read previous text = some (taken, left)) : WholeWord previous taken left := by
  obtain ⟨symbol, member, reads⟩ := Pattern.read_some symbols nonempty _ _ _ _ found
  exact Shape.of_words_whole symbol ((of_words_iff symbol).mp (words symbol member)) previous text taken left reads

section Place

variable {content before front inside rest : Text} {found : Occurrence} (whole : content = before ++ rest)
  (cut : before = front ++ inside) (stands : found.Stands content front)
  (reaches : inside = [] ∨ inside.length < found.symbol.length)
include whole cut stands reaches

theorem inside_leads : inside <+: found.symbol := by
  rcases reaches with rfl | shorter
  · exact List.nil_prefix
  · have both := whole.symm.trans stands.whole
    rw [cut, List.append_assoc, List.append_cancel_left_eq] at both
    exact List.prefix_of_prefix_length_le ⟨rest, both⟩ (List.prefix_append _ _) (Nat.le_of_lt shorter)

theorem inside_line (free : '\n' ∉ found.symbol) : before.count '\n' = front.count '\n' := by
  have noNewline : '\n' ∉ inside := fun newline =>
    free ((inside_leads whole cut stands reaches).subset newline)
  rw [cut, List.count_append, List.count_eq_zero.mpr noNewline, Nat.add_zero]

theorem inside_word {symbol behind : Text} (parts : rest = symbol ++ behind)
    (outer : WholeWord front.getLast? found.symbol found.rest) (inner : WholeWord before.getLast? symbol behind) :
    front = before ∧ found.rest = behind := by
  have here : inside = [] := by
    cases last : inside.getLast? with
    | none => exact List.getLast?_eq_none_iff.mp last
    | some c =>
        have member := (inside_leads whole cut stands reaches).subset (List.mem_of_getLast? last)
        have outside := inner.before
        rw [cut, List.getLast?_append, last] at outside
        simp [outer.word c member] at outside
  rw [here, List.append_nil] at cut
  have both : found.symbol ++ found.rest = symbol ++ behind := by
    rw [← parts]
    exact List.append_cancel_left (stands.whole.symm.trans (cut ▸ whole))
  have same : found.symbol = symbol := by rw [outer.eq_run, both, ← inner.eq_run]
  rw [same, List.append_cancel_left_eq] at both
  exact ⟨cut.symm, both⟩

end Place

theorem newline_no_word {previous : Option Char} {taken left : Text} (word : WholeWord previous taken left) :
    '\n' ∉ taken := by
  intro member
  have newline := word.word _ member
  simp [show CharClass.isWord '\n' = false by decide] at newline

end BlockSearch.Symbol
