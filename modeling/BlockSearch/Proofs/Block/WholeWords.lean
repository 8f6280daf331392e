import BlockSearch.Block.Finder
import BlockSearch.Proofs.Symbol.Wildcards
import Mathlib.Data.List.Sort

set_option autoImplicit false

namespace BlockSearch

namespace Symbol

instance : Std.Irrefl Occurrence.Before := ⟨fun _ before => Nat.lt_irrefl _ before.offset⟩

instance : Std.Antisymm Occurrence.Before :=
  ⟨fun _ _ before behind => absurd before.offset (Nat.lt_asymm behind.offset)⟩

theorem Occurrence.Stands.unique {content before : Text} {a b : Occurrence} (first : a.Stands content before)
    (second : b.Stands content before) (rest : a.rest = b.rest) : a = b := by
  have place : a.place = b.place := first.place.trans second.place.symm
  have symbol : a.symbol = b.symbol := by
    have whole := first.whole.symm.trans second.whole
    rwa [rest, List.append_cancel_left_eq, List.append_cancel_right_eq] at whole
  cases a
  cases b
  simp_all

-- A whole word of the content that one of the symbols stands for.
def Occurrence.IsNamed (symbols : List Text) (content : Text) (found : Occurrence) : Prop :=
  ∃ before, found.Stands content before ∧ WholeWord before.getLast? found.symbol found.rest ∧ found.symbol ≠ [] ∧
    ∃ symbol ∈ symbols, StandsFor symbol found.symbol

section Words

variable (symbols : List Text) (nonempty : symbols ≠ []) (words : ∀ symbol ∈ symbols, isOfWords symbol = true)
include nonempty words

theorem occurrences_named_iff (content : Text) (found : Occurrence) :
    found ∈ (Pattern.ofSymbols symbols).occurrences content ↔ found.IsNamed symbols content := by
  constructor
  · intro member
    obtain ⟨before, stands, reads⟩ := Pattern.occurrences_read _ content found member
    exact ⟨before, stands, (Pattern.of_words_reads_iff symbols nonempty words _ _ _).mp reads⟩
  · rintro ⟨before, stands, named⟩
    have reads := (Pattern.of_words_reads_iff symbols nonempty words _ _ _).mpr named
    obtain ⟨other, member, front, inside, cut, standing, reading, reaches⟩ :=
      Pattern.occurrences_cover _ before (found.symbol ++ found.rest) (by rw [reads, Option.isSome_some])
    rw [← stands.whole] at member standing
    have outer := Pattern.of_words_whole symbols nonempty words _ _ _ _ reading
    obtain ⟨rfl, rest⟩ := inside_word stands.whole cut standing reaches rfl outer named.1
    exact standing.unique stands rest ▸ member

end Words

end Symbol

namespace Block

open BlockSearch.Symbol (Pattern Occurrence isOfWords)

theorem occurrences_are_words (symbols : List Text) (nonempty : symbols ≠ [])
    (words : ∀ symbol ∈ symbols, isOfWords symbol = true) (content : Text) :
    ((Pattern.ofSymbols symbols).occurrences content).Pairwise Occurrence.Before ∧
      (∀ found, found ∈ (Pattern.ofSymbols symbols).occurrences content ↔ found.IsNamed symbols content) ∧
      ∀ (others : List Text) (limits : Limits), others.Perm symbols →
        find limits (Pattern.ofSymbols others) content = find limits (Pattern.ofSymbols symbols) content := by
  have named := Symbol.occurrences_named_iff symbols nonempty words content
  refine ⟨Pattern.occurrences_ordered _ content, named, fun others limits permuted => ?_⟩
  have some : others ≠ [] := fun none => nonempty (List.Perm.nil_eq (none ▸ permuted)).symm
  have same : (Pattern.ofSymbols others).occurrences content = (Pattern.ofSymbols symbols).occurrences content := by
    apply (Pattern.occurrences_ordered _ content).eq_of_mem_iff (Pattern.occurrences_ordered _ content)
    intro found
    rw [named, Symbol.occurrences_named_iff others some fun symbol member => words symbol (permuted.mem_iff.mp member)]
    simp only [Occurrence.IsNamed, permuted.mem_iff]
  rw [find, find, same]

-- The first symbol leads the word, and the second one begins inside of another word; neither hides the third.
theorem occurrences_are_words_behind_leads :
    let symbols : List Text := ["get".toList, "g*t".toList, "get*Data".toList]
    let content : Text := "forget getUserData \x7b\n\x7d\n".toList
    let found : Occurrence := ⟨⟨7, 0, 7, some ' '⟩, "getUserData".toList, " \x7b\n\x7d\n".toList⟩
    symbols ≠ [] ∧ (∀ symbol ∈ symbols, isOfWords symbol = true) ∧
      found ∈ (Pattern.ofSymbols symbols).occurrences content ∧
      find ⟨100, 50⟩ (Pattern.ofSymbols symbols.reverse) content =
        find ⟨100, 50⟩ (Pattern.ofSymbols symbols) content := by
  intro symbols content found
  have nonempty : symbols ≠ [] := List.cons_ne_nil _ _
  have words : ∀ symbol ∈ symbols, isOfWords symbol = true := by decide +kernel
  obtain ⟨-, named, permuted⟩ := occurrences_are_words symbols nonempty words content
  have stands : Symbol.StandsFor "get*Data".toList "getUserData".toList := by
    refine (Symbol.stands_for_part_iff "get".toList "*Data".toList _ (by decide)).mpr ⟨_, rfl, ?_⟩
    refine (Symbol.stands_for_star_iff "Data".toList _).mpr ⟨"User".toList, _, rfl, ?_, ?_⟩
    · exact List.all_eq_true.mp (by decide +kernel)
    · exact (Symbol.stands_for_part_iff "Data".toList [] _ (by decide)).mpr ⟨[], rfl, .nothing⟩
  have whole : Symbol.WholeWord (some ' ') found.symbol found.rest :=
    ⟨List.all_eq_true.mp (by decide +kernel), by decide +kernel, by decide +kernel⟩
  refine ⟨nonempty, words, (named found).mpr ?_, permuted _ _ symbols.reverse_perm⟩
  exact ⟨"forget ".toList, ⟨rfl, by decide +kernel⟩, whole, by decide, "get*Data".toList, by decide, stands⟩

end Block

end BlockSearch
