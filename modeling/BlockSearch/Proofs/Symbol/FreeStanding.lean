import BlockSearch.Proofs.Symbol.Wildcards

set_option autoImplicit false

namespace BlockSearch.Symbol

-- Each end of the symbol that wants an edge has a word character in what the symbol stands for.
structure EdgesFit (symbol word : Text) : Prop where
  leading : wantsEdge symbol.head? = true → word.head?.any CharClass.isWord = true
  trailing : wantsEdge symbol.getLast? = true → word.getLast?.any CharClass.isWord = true

def Occurrence.Meets (first last : Nat) (found : Occurrence) : Prop :=
  found.place.offset < last ∧ first < found.place.offset + Text.size found.symbol

theorem Pattern.single_read (symbol : Text) (previous : Option Char) (text : Text) :
    (Pattern.ofSymbols [symbol]).read previous text = (Shape.ofSymbol symbol).read previous text := by
  rw [Pattern.read_eq [symbol] (List.cons_ne_nil _ _), List.findSome?_singleton]

theorem Occurrence.Stands.meets {content front inside : Text} {found : Occurrence} (stands : found.Stands content front)
    (some : found.symbol ≠ []) (reaches : inside = [] ∨ inside.length < found.symbol.length) (word rest : Text)
    (whole : content = front ++ inside ++ (word ++ rest)) (taken : word ≠ []) :
    found.Meets (Text.size (front ++ inside)) (Text.size (front ++ inside ++ word)) := by
  have leads := inside_leads whole rfl stands reaches
  obtain ⟨more, symbol⟩ := leads
  have further : more ≠ [] := by
    rintro rfl
    rw [List.append_nil] at symbol
    rcases reaches with none | shorter
    · exact some (symbol ▸ none)
    · exact absurd shorter (symbol ▸ Nat.lt_irrefl _)
  have wide := Text.size_pos more further
  have long := Text.size_pos word taken
  unfold Occurrence.Meets
  rw [stands.offset, ← symbol, Text.size_append, Text.size_append, Text.size_append]
  omega

theorem free_standing_met (symbol word before behind : Text) (stands : StandsFor symbol word) (some : word ≠ [])
    (fit : EdgesFit symbol word) :
    ∃ found ∈ (Pattern.ofSymbols [symbol]).occurrences (before ++ [' '] ++ (word ++ ' ' :: behind)),
      found.Meets (Text.size (before ++ [' '])) (Text.size (before ++ [' '] ++ word)) := by
  have space : CharClass.isWord ' ' = false := by decide
  have reads : ((Pattern.ofSymbols [symbol]).read (before ++ [' ']).getLast? (word ++ ' ' :: behind)).isSome = true := by
    rw [Pattern.single_read, List.getLast?_concat]
    refine Shape.of_symbol_is_some symbol _ word _ some stands (fun wanted => ?_) fun wanted => ?_
    · simpa [isEdge, space] using fit.leading wanted
    · simpa [isEdge, space] using fit.trailing wanted
  obtain ⟨found, member, front, inside, cut, standing, reading, reaches⟩ :=
    (Pattern.ofSymbols [symbol]).occurrences_cover (before ++ [' ']) (word ++ ' ' :: behind) reads
  rw [Pattern.single_read] at reading
  have taken := Shape.of_symbol_takes symbol _ _ _ _ reading
  have meets := standing.meets taken reaches word (' ' :: behind) (by rw [← cut]) some
  rw [← cut] at meets
  exact ⟨found, member, meets⟩

-- The second of two words that share a letter is met by the occurrence that has begun before it.
theorem free_standing_met_by_earlier :
    let symbol : Text := "x x".toList
    StandsFor symbol symbol ∧ EdgesFit symbol symbol ∧
      ∃ found ∈ (Pattern.ofSymbols [symbol]).occurrences " x x x ".toList, found.Meets 3 6 := by
  intro symbol
  have stands := stands_for_itself symbol (by decide)
  have fit : EdgesFit symbol symbol := ⟨fun _ => by decide +kernel, fun _ => by decide +kernel⟩
  have met := free_standing_met symbol symbol " x".toList [] stands (by decide) fit
  exact ⟨stands, fit, met⟩

-- A raised number belongs to no word, and a star that stands for nothing leaves the dot at the edge.
theorem raised_number_missed :
    let number : Text := "x²".toList
    let suffix : Text := "*.a".toList
    StandsFor number number ∧ (Pattern.ofSymbols [number]).occurrences " x² ".toList = [] ∧
      StandsFor suffix ".a".toList ∧ (Pattern.ofSymbols [suffix]).occurrences " .a ".toList = [] := by
  intro number suffix
  have stands : StandsFor suffix ".a".toList :=
    .star _ [] _ (by simp) (stands_for_itself ".a".toList (by decide))
  exact ⟨stands_for_itself number (by decide), by decide +kernel, stands, by decide +kernel⟩

end BlockSearch.Symbol
