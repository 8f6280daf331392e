import BlockSearch.Proofs.Symbol.Words

set_option autoImplicit false

namespace BlockSearch.Symbol

inductive StandsFor : Text → Text → Prop where
  | nothing : StandsFor [] []
  | star (symbol run word : Text) (words : ∀ c ∈ run, CharClass.isWord c = true) (others : StandsFor symbol word) :
      StandsFor ('*' :: symbol) (run ++ word)
  | char (c : Char) (symbol word : Text) (plain : c ≠ '*') (others : StandsFor symbol word) :
      StandsFor (c :: symbol) (c :: word)

theorem stands_for_star_iff (symbol word : Text) :
    StandsFor ('*' :: symbol) word ↔
      ∃ run inner, word = run ++ inner ∧ (∀ c ∈ run, CharClass.isWord c = true) ∧ StandsFor symbol inner := by
  constructor
  · intro stands
    cases stands with
    | star _ run inner words others => exact ⟨run, inner, rfl, words, others⟩
    | char _ _ _ plain => exact absurd rfl plain
  · rintro ⟨run, inner, rfl, words, others⟩
    exact .star symbol run inner words others

theorem stands_for_part_iff (part symbol word : Text) (free : '*' ∉ part) :
    StandsFor (part ++ symbol) word ↔ ∃ inner, word = part ++ inner ∧ StandsFor symbol inner := by
  induction part generalizing word with
  | nil => simp
  | cons c part ih =>
      simp only [List.mem_cons, not_or] at free
      constructor
      · intro stands
        cases stands with
        | star => exact absurd rfl free.1
        | char _ _ behind _ others =>
            obtain ⟨inner, rfl, last⟩ := (ih behind free.2).mp others
            exact ⟨inner, rfl, last⟩
      · rintro ⟨inner, rfl, others⟩
        exact .char c _ _ (Ne.symm free.1) ((ih _ free.2).mpr ⟨inner, rfl, others⟩)

theorem stands_for_itself (part : Text) (free : '*' ∉ part) : StandsFor part part := by
  have whole := (stands_for_part_iff part [] part free).mpr ⟨[], (List.append_nil part).symm, .nothing⟩
  rwa [List.append_nil] at whole

theorem stars_stand_for (symbol word : Text) (some : symbol ≠ []) (stars : symbol.all (· == '*') = true)
    (words : ∀ c ∈ word, CharClass.isWord c = true) : StandsFor symbol word := by
  induction symbol generalizing word with
  | nil => exact absurd rfl some
  | cons c symbol ih =>
      simp only [List.all_cons, Bool.and_eq_true, beq_iff_eq] at stars
      obtain ⟨rfl, others⟩ := stars
      -- The first star takes all of the word, and the others take nothing.
      rw [← List.append_nil word]
      refine .star symbol word [] words ?_
      by_cases last : symbol = []
      · exact last ▸ .nothing
      · exact ih [] last others (by simp)

theorem words_of_stars (symbol word : Text) (stars : symbol.all (· == '*') = true) (stands : StandsFor symbol word) :
    ∀ c ∈ word, CharClass.isWord c = true := by
  induction stands with
  | nothing => simp
  | star symbol run word words others ih =>
      simp only [List.all_cons, Bool.and_eq_true] at stars
      intro c member
      rcases List.mem_append.mp member with here | behind
      · exact words c here
      · exact ih stars.2 c behind
  | char c symbol word plain others ih => simp [plain] at stars

def starred (parts : List Text) : Text := parts.flatMap fun part => '*' :: part

theorem joined_starred (first : Text) (parts : List Text) :
    Text.joined ['*'] (first :: parts) = first ++ starred parts := by
  induction parts generalizing first with
  | nil => simp [Text.joined, starred]
  | cons part parts ih =>
      rw [Text.joined_cons _ _ _ (List.cons_ne_nil _ _), ih]
      rfl

theorem stands_for_starred_iff (part : Text) (parts : List Text) (word : Text) (free : '*' ∉ part) :
    StandsFor (starred (part :: parts)) word ↔
      ∃ run inner, word = run ++ (part ++ inner) ∧ (∀ c ∈ run, CharClass.isWord c = true) ∧
        StandsFor (starred parts) inner := by
  have cut : starred (part :: parts) = '*' :: (part ++ starred parts) := rfl
  rw [cut, stands_for_star_iff]
  constructor
  · rintro ⟨run, behind, rfl, words, others⟩
    obtain ⟨inner, rfl, last⟩ := (stands_for_part_iff part _ _ free).mp others
    exact ⟨run, inner, rfl, words, last⟩
  · rintro ⟨run, inner, rfl, words, others⟩
    exact ⟨run, part ++ inner, rfl, words, (stands_for_part_iff part _ _ free).mpr ⟨inner, rfl, others⟩⟩

namespace Reader

theorem runs_stand_for (edge : Bool) (parts : List Text) (free : ∀ part ∈ parts, '*' ∉ part) (previous : Option Char)
    (text taken left : Text) (found : runs edge parts previous text = some (taken, left)) :
    StandsFor (starred parts) taken := by
  induction parts generalizing previous text taken with
  | nil =>
      obtain ⟨rfl, -⟩ := done_reads _ _ _ _ _ found
      exact .nothing
  | cons part parts ih =>
      obtain ⟨front, inner, rest, -, word, literal, rfl⟩ := run_reads _ _ _ _ _ found
      obtain ⟨others, last, -, runs, rfl⟩ := literal_reads _ _ _ _ _ _ literal
      have behind := ih (fun other later => free other (List.mem_cons_of_mem _ later)) _ _ _ runs
      exact (stands_for_starred_iff part parts _ (free part List.mem_cons_self)).mpr ⟨front, others, rfl, word, behind⟩

theorem literal_is_some (part : Text) (next : Reader) (previous : Option Char) (rest : Text)
    (reads : (next (part.getLast?.or previous) rest).isSome = true) :
    (literal part next previous (part ++ rest)).isSome = true := by
  simpa [literal, Text.after_lead_append] using reads

-- However far the run may go, what stands behind it is found if it can be read behind some front of the run.
theorem run_is_some (next : Reader) (previous : Option Char) (front rest : Text)
    (word : ∀ c ∈ front, CharClass.isWord c = true) (reads : (next (front.getLast?.or previous) rest).isSome = true) :
    (run next previous (front ++ rest)).isSome = true := by
  induction front generalizing previous with
  | nil =>
      cases rest with
      | nil => exact reads
      | cons c rest =>
          simp only [List.nil_append, run]
          split
          · split
            · rfl
            · exact reads
          · exact reads
  | cons c front ih =>
      have behind : (run next (some c) (front ++ rest)).isSome = true := by
        refine ih (some c) (fun d member => word d (List.mem_cons_of_mem _ member)) ?_
        rw [← reads, Text.last_cons]
      obtain ⟨found, inside⟩ := Option.isSome_iff_exists.mp behind
      simp [run, word c List.mem_cons_self, inside]

theorem done_is_some (edge : Bool) (previous : Option Char) (text : Text)
    (edged : edge = true → isEdge previous text.head? = true) : (done edge previous text).isSome = true := by
  cases edge with
  | false => rfl
  | true => simp [done, edged rfl]

theorem runs_is_some (edge : Bool) (parts : List Text) (free : ∀ part ∈ parts, '*' ∉ part) (previous : Option Char)
    (taken left : Text) (stands : StandsFor (starred parts) taken)
    (edged : edge = true → isEdge (taken.getLast?.or previous) left.head? = true) :
    (runs edge parts previous (taken ++ left)).isSome = true := by
  induction parts generalizing previous taken with
  | nil =>
      cases stands
      exact done_is_some edge previous left edged
  | cons part parts ih =>
      obtain ⟨front, inner, rfl, word, others⟩ :=
        (stands_for_starred_iff part parts taken (free part List.mem_cons_self)).mp stands
      rw [List.append_assoc, List.append_assoc]
      refine run_is_some _ previous front _ word (literal_is_some part _ _ _ ?_)
      refine ih (fun other later => free other (List.mem_cons_of_mem _ later)) _ inner others ?_
      simpa [List.getLast?_append, Option.or_assoc] using edged

theorem word_is_some (edge : Bool) (previous : Option Char) (taken left : Text) (some : taken ≠ [])
    (words : ∀ c ∈ taken, CharClass.isWord c = true)
    (edged : edge = true → isEdge taken.getLast? left.head? = true) :
    (word (done edge) previous (taken ++ left)).isSome = true := by
  obtain ⟨c, rest, rfl⟩ := List.exists_cons_of_ne_nil some
  have last : rest.getLast?.or (.some c) = (c :: rest).getLast? := by
    rw [← Text.last_cons c rest none, Option.or_none]
  have behind : (run (done edge) (.some c) (rest ++ left)).isSome = true := by
    refine run_is_some _ _ rest left (fun d member => words d (List.mem_cons_of_mem _ member)) ?_
    rw [last]
    exact done_is_some edge _ left edged
  simpa [word, words c List.mem_cons_self] using behind

-- There is only one whole word at a place, so a reader of whole words that reads something there reads it.
theorem whole_reads (reader : Reader) (cuts : reader.Cuts)
    (wholes : ∀ previous text taken left, reader previous text = some (taken, left) → WholeWord previous taken left)
    {previous : Option Char} {taken left : Text} (whole : WholeWord previous taken left)
    (reads : (reader previous (taken ++ left)).isSome = true) :
    reader previous (taken ++ left) = some (taken, left) := by
  obtain ⟨⟨other, rest⟩, found⟩ := Option.isSome_iff_exists.mp reads
  have cut := cuts _ _ _ _ found
  have same : taken = other := by rw [whole.eq_run, cut, ← (wholes _ _ _ _ found).eq_run]
  rw [same, List.append_cancel_left_eq] at cut
  rw [found, same, cut]

end Reader

theorem Core.of_symbol_stands (symbol : Text) (some : symbol ≠ []) (edge : Bool) (previous : Option Char)
    (text taken left : Text) (words : ∀ c ∈ taken, CharClass.isWord c = true)
    (found : (Core.ofSymbol symbol).reader edge previous text = .some (taken, left)) : StandsFor symbol taken := by
  by_cases stars : symbol.all (· == '*') = true
  · exact stars_stand_for symbol taken some stars words
  · obtain ⟨first, others, core, cut⟩ := Core.of_symbol_parts symbol (by simpa using stars)
    have free : ∀ part ∈ first :: others, '*' ∉ part := cut ▸ Text.piece_free '*' symbol
    rw [core] at found
    obtain ⟨inner, rest, -, runs, rfl⟩ := Reader.literal_reads _ _ _ _ _ _ found
    have behind := Reader.runs_stand_for edge others (fun part later => free part (List.mem_cons_of_mem _ later)) _ _ _ _
      runs
    rw [← Text.joined_pieces '*' symbol, cut, joined_starred]
    exact (stands_for_part_iff first _ _ (free first List.mem_cons_self)).mpr ⟨inner, rfl, behind⟩

theorem Core.of_symbol_is_some (symbol : Text) (edge : Bool) (previous : Option Char) (taken left : Text)
    (some : taken ≠ []) (edged : edge = true → isEdge taken.getLast? left.head? = true)
    (stands : StandsFor symbol taken) :
    ((Core.ofSymbol symbol).reader edge previous (taken ++ left)).isSome = true := by
  by_cases stars : symbol.all (· == '*') = true
  · have word : Core.ofSymbol symbol = .anyWord := by rw [Core.ofSymbol, if_pos stars]
    rw [word]
    exact Reader.word_is_some edge previous taken left some (words_of_stars symbol taken stars stands) edged
  · obtain ⟨first, others, core, cut⟩ := Core.of_symbol_parts symbol (by simpa using stars)
    have free : ∀ part ∈ first :: others, '*' ∉ part := cut ▸ Text.piece_free '*' symbol
    rw [← Text.joined_pieces '*' symbol, cut, joined_starred] at stands
    obtain ⟨inner, rfl, behind⟩ := (stands_for_part_iff first _ _ (free first List.mem_cons_self)).mp stands
    rw [core, List.append_assoc]
    refine Reader.literal_is_some first _ previous _ ?_
    refine Reader.runs_is_some edge others (fun part later => free part (List.mem_cons_of_mem _ later)) _ inner left
      behind ?_
    -- Something is taken, so the character before the edge does not lie before the symbol.
    have before : inner.getLast?.or (first.getLast?.or previous) = (first ++ inner).getLast? := by
      obtain ⟨front, c, last⟩ := List.eq_nil_or_concat (first ++ inner) |>.resolve_left some
      have joined : (first ++ inner).getLast? = .some c := by rw [last, List.concat_eq_append, List.getLast?_concat]
      rw [← Option.or_assoc, ← List.getLast?_append, joined]
      rfl
    rw [before]
    exact edged

theorem Shape.of_symbol_is_some (symbol : Text) (previous : Option Char) (taken left : Text) (some : taken ≠ [])
    (stands : StandsFor symbol taken) (leading : wantsEdge symbol.head? = true → isEdge previous taken.head? = true)
    (trailing : wantsEdge symbol.getLast? = true → isEdge taken.getLast? left.head? = true) :
    ((Shape.ofSymbol symbol).read previous (taken ++ left)).isSome = true := by
  have core := Core.of_symbol_is_some symbol (wantsEdge symbol.getLast?) previous taken left some trailing stands
  have first : (taken ++ left).head? = taken.head? := by
    cases taken with
    | nil => exact absurd rfl some
    | cons c rest => rfl
  have begins : ¬ (wantsEdge symbol.head? && !isEdge previous (taken ++ left).head?) = true := by
    intro refused
    rw [Bool.and_eq_true, first] at refused
    simp [leading refused.1] at refused
  rw [Shape.read, Shape.ofSymbol, if_neg begins]
  exact core

theorem Shape.of_words_reads_iff (symbol : Text) (words : OfWords symbol) (previous : Option Char)
    (taken left : Text) (whole : WholeWord previous taken left) (some : taken ≠ []) :
    (Shape.ofSymbol symbol).read previous (taken ++ left) = .some (taken, left) ↔ StandsFor symbol taken := by
  have nonempty : symbol ≠ [] := by
    rintro rfl
    exact absurd words.leading (by decide)
  obtain ⟨c, rest, first⟩ := List.exists_cons_of_ne_nil some
  obtain ⟨front, d, last⟩ := List.eq_nil_or_concat taken |>.resolve_left some
  rw [List.concat_eq_append] at last
  constructor
  · intro found
    exact Core.of_symbol_stands symbol nonempty _ previous _ taken left whole.word (Shape.read_core _ _ _ _ _ found).1
  · intro stands
    have leading : isEdge previous taken.head? = true := by
      simp [isEdge, whole.before, first, whole.word c (by simp [first])]
    have trailing : isEdge taken.getLast? left.head? = true := by
      simp [isEdge, whole.behind, last, whole.word d (by simp [last])]
    have reads := Shape.of_symbol_is_some symbol previous taken left some stands (fun _ => leading) fun _ => trailing
    exact Reader.whole_reads _ (Shape.ofSymbol symbol).read_cuts (Shape.of_words_whole symbol words) whole reads

theorem Pattern.of_words_reads_iff (symbols : List Text) (nonempty : symbols ≠ [])
    (words : ∀ symbol ∈ symbols, isOfWords symbol = true) (previous : Option Char) (taken left : Text) :
    (Pattern.ofSymbols symbols).read previous (taken ++ left) = some (taken, left) ↔
      WholeWord previous taken left ∧ taken ≠ [] ∧ ∃ symbol ∈ symbols, StandsFor symbol taken := by
  constructor
  · intro found
    have whole := Pattern.of_words_whole symbols nonempty words _ _ _ _ found
    obtain ⟨symbol, member, reads⟩ := Pattern.read_some symbols nonempty _ _ _ _ found
    have some := Shape.of_symbol_takes symbol _ _ _ _ reads
    have word := (of_words_iff symbol).mp (words symbol member)
    exact ⟨whole, some, symbol, member, (Shape.of_words_reads_iff symbol word _ _ _ whole some).mp reads⟩
  · rintro ⟨whole, some, symbol, member, stands⟩
    have word := (of_words_iff symbol).mp (words symbol member)
    have single := (Shape.of_words_reads_iff symbol word _ _ _ whole some).mpr stands
    have reads : ((Pattern.ofSymbols symbols).read previous (taken ++ left)).isSome = true := by
      rw [Pattern.read_eq symbols nonempty, List.findSome?_isSome_iff]
      exact ⟨symbol, member, by rw [single, Option.isSome_some]⟩
    exact Reader.whole_reads _ (Pattern.ofSymbols symbols).read_cuts (Pattern.of_words_whole symbols nonempty words) whole
      reads

end BlockSearch.Symbol
