import BlockSearch.FilePattern.Extension
import BlockSearch.Glob.Matching
import BlockSearch.Glob.Reader
import BlockSearch.Proofs.Glob.Depth
import BlockSearch.Proofs.Text.Ascii
import BlockSearch.Proofs.Text.Pieces

set_option autoImplicit false

namespace BlockSearch.Glob

def isOrdinary (c : Char) : Bool := !(['?', '*', '[', '{', '}', ',', '\x5c'] : Text).contains c

def word (text : Text) : List Piece := text.map Piece.literal

def choice : List Text → List Piece
  | [text] => word text
  | texts => [.alternatives (texts.map word)]

def State.written (state : State) (text : Text) : State :=
  { state with
    level := { state.level with current := (word text).reverse ++ state.level.current }
    previous := text.getLast?.or state.previous }

theorem State.written_cons (state : State) (c : Char) (rest : Text) :
    State.written { state.push (.literal c) with previous := some c } rest = state.written (c :: rest) := by
  cases last : rest.getLast? <;> simp [written, push, word, List.getLast?_cons, last]

theorem read_char_ordinary (dialect : Dialect) (state : State) (c : Char) (rest : Text)
    (ordinary : isOrdinary c = true) :
    readChar dialect state c rest = .ok (0, state.push (.literal c)) := by
  simp only [isOrdinary, List.contains_cons, List.contains_nil, Bool.or_false, Bool.not_eq_true', Bool.or_eq_false_iff,
    beq_eq_false_iff_ne] at ordinary
  simp [readChar, ordinary]

theorem read_word (dialect : Dialect) (state : State) (text rest : Text) (ordinary : ∀ c ∈ text, isOrdinary c = true) :
    readAll dialect 0 state (text ++ rest) = readAll dialect 0 (state.written text) rest := by
  induction text generalizing state with
  | nil => rfl
  | cons c text ih =>
      have others := ih { state.push (.literal c) with previous := some c } fun d later =>
        ordinary d (List.mem_cons_of_mem _ later)
      rw [State.written_cons] at others
      rw [List.cons_append, readAll, read_char_ordinary dialect state c _ (ordinary c List.mem_cons_self)]
      exact others

theorem all_ordinary (texts : List Text) (ordinary : (texts.all fun text => text.all isOrdinary) = true) :
    ∀ text ∈ texts, ∀ c ∈ text, isOrdinary c = true := fun text member =>
  List.all_eq_true.mp (List.all_eq_true.mp ordinary text member)

-- Words between commas up to the closing brace become the branches behind those that are finished.
theorem read_branches (dialect : Dialect) (finished : List (List Piece)) (level : Level) (outer : List Level)
    (previous : Option Char) (brackets : Bool) (first : Text) (texts : List Text) (rest : Text)
    (ordinary : ∀ text ∈ first :: texts, ∀ c ∈ text, isOrdinary c = true) :
    readAll dialect 0 ⟨⟨finished, []⟩, level :: outer, previous, brackets⟩
        (Text.joined [','] (first :: texts) ++ '}' :: rest) =
      readAll dialect 0 ⟨⟨level.finished,
        .alternatives ((finished.map List.reverse).reverse ++ (first :: texts).map word) :: level.current⟩, outer,
        some '}', brackets⟩ rest := by
  induction texts generalizing finished first previous with
  | nil =>
      have same : Text.joined [','] [first] = first := List.intercalate_singleton
      rw [same, read_word dialect _ first _ (ordinary first List.mem_cons_self)]
      simp [readAll, readChar, State.closeBraces, State.written, State.push, Except.map]
  | cons second texts ih =>
      have cut := Text.joined_cons ',' first (second :: texts) (List.cons_ne_nil _ _)
      have others := ih ((word first).reverse :: finished) (some ',') second fun text later =>
        ordinary text (List.mem_cons_of_mem _ later)
      rw [cut, List.append_assoc, read_word dialect _ first _ (ordinary first List.mem_cons_self)]
      simp only [List.cons_append, readAll, readChar, State.written, State.comma, State.inBraces]
      simpa using others

theorem read_braces (dialect : Dialect) (state : State) (first : Text) (texts : List Text) (rest : Text)
    (ordinary : ∀ text ∈ first :: texts, ∀ c ∈ text, isOrdinary c = true) :
    readAll dialect 0 state (FilePattern.braces (first :: texts) ++ rest) =
      readAll dialect 0 { state.push (.alternatives ((first :: texts).map word)) with previous := some '}' } rest := by
  have branches := read_branches dialect [] state.level state.outer (some '{') state.literalBrackets first texts rest ordinary
  simpa [FilePattern.braces, readAll, readChar, State.openBraces, State.push] using branches

theorem after_bytes_iff (lead bytes rest : Bytes) : afterBytes lead bytes = some rest ↔ bytes = lead ++ rest := by
  constructor
  · exact after_bytes_eq lead bytes rest
  · rintro rfl
    induction lead with
    | nil => rfl
    | cons byte lead ih => simpa [afterBytes] using ih

theorem literal_accepts (next : Bytes → Bool) (c : Char) (bytes : Bytes) :
    (Piece.literal c).accepts next bytes = true ↔ ∃ rest, bytes = String.utf8EncodeChar c ++ rest ∧ next rest = true := by
  simp only [Piece.accepts]
  cases found : afterBytes (String.utf8EncodeChar c) bytes with
  | none =>
      refine iff_of_false Bool.false_ne_true ?_
      rintro ⟨rest, cut, -⟩
      rw [(after_bytes_iff _ _ rest).mpr cut] at found
      cases found
  | some rest =>
      have cut := (after_bytes_iff _ _ rest).mp found
      constructor
      · exact fun holds => ⟨rest, cut, holds⟩
      · rintro ⟨other, same, holds⟩
        rw [cut, List.append_cancel_left_eq] at same
        rwa [same]

theorem word_accepts (next : Bytes → Bool) (text : Text) (pieces : List Piece) (bytes : Bytes) :
    allAccept next (word text ++ pieces) bytes = true ↔
      ∃ rest, bytes = Text.utf8 text ++ rest ∧ allAccept next pieces rest = true := by
  induction text generalizing bytes with
  | nil => simp [word, Text.utf8]
  | cons c text ih =>
      have first := literal_accepts (fun rest => allAccept next (word text ++ pieces) rest) c bytes
      simp only [word, List.map_cons, List.cons_append, allAccept] at first ih ⊢
      rw [first, Text.utf8_cons]
      constructor
      · rintro ⟨between, rfl, behind⟩
        obtain ⟨rest, rfl, holds⟩ := (ih between).mp behind
        exact ⟨rest, by rw [List.append_assoc], holds⟩
      · rintro ⟨rest, rfl, holds⟩
        exact ⟨_, by rw [List.append_assoc], (ih _).mpr ⟨rest, rfl, holds⟩⟩

theorem any_word_accepts (next : Bytes → Bool) (texts : List Text) (bytes : Bytes) :
    anyAccepts next (texts.map word) bytes = true ↔
      ∃ text ∈ texts, ∃ rest, bytes = Text.utf8 text ++ rest ∧ next rest = true := by
  induction texts with
  | nil => simp [anyAccepts]
  | cons text texts ih =>
      have first := word_accepts next text [] bytes
      rw [List.append_nil] at first
      simp only [List.map_cons, anyAccepts, Bool.or_eq_true, ih, first, List.mem_cons, exists_eq_or_imp, allAccept]

theorem choice_accepts (next : Bytes → Bool) (texts : List Text) (pieces : List Piece) (bytes : Bytes) :
    allAccept next (choice texts ++ pieces) bytes = true ↔
      ∃ text ∈ texts, ∃ rest, bytes = Text.utf8 text ++ rest ∧ allAccept next pieces rest = true := by
  have several := any_word_accepts (fun rest => allAccept next pieces rest) texts bytes
  match texts with
  | [] => simp [choice, allAccept, Piece.accepts, anyAccepts]
  | [text] => simpa [choice] using word_accepts next text pieces bytes
  | _ :: _ :: _ => simpa only [choice, List.singleton_append, allAccept, Piece.accepts] using several

theorem some_within_iff (next : Bytes → Bool) (bytes : Bytes) :
    someWithin next bytes = true ↔ ∃ taken rest, bytes = taken ++ rest ∧ slash ∉ taken ∧ next rest = true := by
  induction bytes with
  | nil =>
      simp only [someWithin, List.nil_eq_append_iff]
      constructor
      · exact fun holds => ⟨[], [], ⟨rfl, rfl⟩, List.not_mem_nil, holds⟩
      · rintro ⟨_, _, ⟨rfl, rfl⟩, -, holds⟩
        exact holds
  | cons byte bytes ih =>
      simp only [someWithin, Bool.or_eq_true, Bool.and_eq_true, bne_iff_ne, ne_eq, ih]
      constructor
      · rintro (here | ⟨other, taken, rest, rfl, free, holds⟩)
        · exact ⟨[], _, rfl, List.not_mem_nil, here⟩
        · exact ⟨byte :: taken, rest, rfl, by simp [free, Ne.symm other], holds⟩
      · rintro ⟨taken, rest, cut, free, holds⟩
        cases taken with
        | nil => exact .inl (by rwa [cut])
        | cons first taken =>
            obtain ⟨rfl, rfl⟩ := List.cons.inj cut
            simp only [List.mem_cons, not_or] at free
            exact .inr ⟨Ne.symm free.1, taken, rest, rfl, free.2, holds⟩

theorem slash_free_iff (text : Text) : slash ∉ Text.utf8 text ↔ '/' ∉ text := by
  rw [← List.count_eq_zero, ← List.count_eq_zero, utf8_slashes]

theorem some_within_empty (bytes : Bytes) : someWithin List.isEmpty bytes = true ↔ slash ∉ bytes := by
  rw [some_within_iff]
  constructor
  · rintro ⟨taken, rest, rfl, free, none⟩
    rwa [List.isEmpty_iff.mp none, List.append_nil]
  · exact fun free => ⟨bytes, [], (List.append_nil bytes).symm, free, rfl⟩

theorem some_below_iff (next : Bytes → Bool) (bytes : Bytes) :
    someBelow next bytes = true ↔ ∃ above rest, bytes = above ++ slash :: rest ∧ next rest = true := by
  induction bytes with
  | nil => simp [someBelow]
  | cons byte bytes ih =>
      simp only [someBelow, Bool.or_eq_true, Bool.and_eq_true, beq_iff_eq, ih]
      constructor
      · rintro (⟨rfl, here⟩ | ⟨above, rest, rfl, holds⟩)
        · exact ⟨[], bytes, rfl, here⟩
        · exact ⟨byte :: above, rest, rfl, holds⟩
      · rintro ⟨above, rest, cut, holds⟩
        cases above with
        | nil =>
            obtain ⟨rfl, rfl⟩ := List.cons.inj cut
            exact .inl ⟨rfl, holds⟩
        | cons first above =>
            obtain ⟨rfl, rfl⟩ := List.cons.inj cut
            exact .inr ⟨above, rest, rfl, holds⟩

-- A star and a double star behind it together stand for all up to a slash.
theorem run_between_accepts (next : Bytes → Bool) (bytes : Bytes) :
    Piece.anyRun.accepts (fun rest => Piece.anyBetween.accepts next rest) bytes = someBelow next bytes := by
  rw [Piece.accepts]
  induction bytes with
  | nil => rfl
  | cons byte bytes ih =>
      rw [someWithin, ih, Piece.accepts, someBelow]
      cases same : byte == slash <;> simp [bne, same]

theorem some_rest_empty (bytes : Bytes) : someRest List.isEmpty bytes = true := by
  induction bytes with
  | nil => rfl
  | cons byte bytes ih => rw [someRest, ih, Bool.or_true]

theorem is_match_accepts (source text : Text) (pieces : List Piece) (last : Piece) (ends : pieces.getLast? = some last)
    (several : last ≠ .anyAbove) (noPoint : last ≠ .literal '.') :
    (⟨source, pieces⟩ : Glob).isMatch text = allAccept List.isEmpty pieces (Text.utf8 text) := by
  have whole : pieces ≠ [.anyAbove] := by
    rintro rfl
    exact several (Option.some.inj ends).symm
  have free : asksForName pieces = false := by
    rw [asksForName, endsWithPoint, ends]
    cases last with
    | literal c =>
        have other : c ≠ '.' := fun same => noPoint (by rw [same])
        simp [other]
    | _ => rfl
  rw [isMatch, matchesBytes, free, Bool.false_and, Bool.not_false, Bool.true_and, matches_whole_eq _ _ whole]

end BlockSearch.Glob
