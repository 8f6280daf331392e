import BlockSearch.Proofs.Discovery.Planning
import BlockSearch.Proofs.Glob.Alternation
import BlockSearch.Proofs.Text.Pieces

set_option autoImplicit false

namespace BlockSearch.Exclusion

open Glob

inductive Tier where
  | anywhere
  | atTop
  | nested
deriving DecidableEq

namespace Tier

def all : List Tier := [.anywhere, .atTop, .nested]

def before : Tier → Text
  | .anywhere => "**/".toList
  | .atTop => []
  | .nested => "*/**/".toList

def lead : Tier → List Piece
  | .anywhere => [.anyAbove]
  | .atTop => []
  | .nested => [.anyRun, .anyBetween]

def directories : Tier → List Text
  | .anywhere => globalDirectories
  | .atTop => rootDirectories
  | .nested => nestedDirectories

def Admits : Tier → List Text → Prop
  | .anywhere, _ => True
  | .atTop, above => above = []
  | .nested, above => above ≠ []

def kept (tier : Tier) (patterns : List Text) : List Text :=
  tier.directories.filter fun directory => !isNamed directory patterns

-- The segments of a path below a directory of the tier.
def Covers (tier : Tier) (names segments : List Text) : Prop :=
  ∃ above name below, segments = above ++ name :: below ∧ below ≠ [] ∧ tier.Admits above ∧ name ∈ names

def Stops (tier : Tier) (names segments : List Text) : Prop :=
  ∃ above name, segments = above ++ [name] ∧ tier.Admits above ∧ name ∈ names

end Tier

def IsWord (name : Text) : Prop :=
  name ≠ [] ∧ (∀ c ∈ name, isOrdinary c = true ∧ c.utf8Size = 1 ∧ c ≠ '/' ∧ c ≠ '!') ∧ name.getLast? ≠ some '.'

instance (name : Text) : Decidable (IsWord name) :=
  have : Decidable (∀ c ∈ name, isOrdinary c = true ∧ c.utf8Size = 1 ∧ c ≠ '/' ∧ c ≠ '!') := List.decidableBAll _ name
  inferInstanceAs (Decidable (name ≠ [] ∧ (∀ c ∈ name, _) ∧ name.getLast? ≠ some '.'))

theorem Tier.directories_words (tier : Tier) : ∀ name ∈ tier.directories, IsWord name := by
  cases tier <;> decide +kernel

theorem Tier.kept_words (tier : Tier) (patterns : List Text) : ∀ name ∈ tier.kept patterns, IsWord name :=
  fun name member => tier.directories_words name ((List.mem_filter.mp member).1)

section Reading

variable (names : List Text) (words : ∀ name ∈ names, IsWord name)

theorem Tier.read_before (tier : Tier) (rest : Text) :
    ∃ previous, readAll Plan.dialect 0 .start (tier.before ++ rest) =
      readAll Plan.dialect 0 ⟨⟨[], tier.lead.reverse⟩, [], previous, false⟩ rest := by
  cases tier <;> exact ⟨_, rfl⟩

include words in
theorem read_alternation (dialect : Dialect) (state : State) (text : Text) (written : alternation names = some text)
    (rest : Text) :
    ∃ previous, readAll dialect 0 state (text ++ rest) =
      readAll dialect 0 { state with
        level := { state.level with current := (choice names).reverse ++ state.level.current }
        previous := previous } rest := by
  have ordinary : ∀ name ∈ names, ∀ c ∈ name, isOrdinary c = true := fun name member c inside =>
    ((words name member).2.1 c inside).1
  match names with
  | [] => cases written
  | [single] =>
      cases written
      exact ⟨_, read_word dialect state _ rest (ordinary _ List.mem_cons_self)⟩
  | first :: second :: others =>
      cases written
      exact ⟨_, read_braces dialect state first (second :: others) rest ordinary⟩

theorem read_below (dialect : Dialect) (state : State) :
    readAll dialect 0 state "/**".toList =
      .ok { state with
        level := { state.level with current := .anyBelow :: state.level.current }
        previous := some '*' } := by
  rfl

include words

theorem Tier.read_stem (tier : Tier) (text : Text) (written : alternation names = some text) :
    Plan.readGlob (tier.before ++ text) = .ok ⟨tier.before ++ text, tier.lead ++ choice names⟩ := by
  obtain ⟨previous, lead⟩ := tier.read_before text
  obtain ⟨last, read⟩ := read_alternation names words Plan.dialect ⟨⟨[], tier.lead.reverse⟩, [], previous, false⟩ text
    written []
  rw [List.append_nil] at read
  rw [read_glob_of _ _ (lead.trans read) rfl]
  simp

theorem Tier.read_files (tier : Tier) (text : Text) (written : alternation names = some text) :
    Plan.readGlob (tier.before ++ text ++ "/**".toList) =
      .ok ⟨tier.before ++ text ++ "/**".toList, tier.lead ++ (choice names ++ [.anyBelow])⟩ := by
  obtain ⟨previous, lead⟩ := tier.read_before (text ++ "/**".toList)
  obtain ⟨last, read⟩ := read_alternation names words Plan.dialect ⟨⟨[], tier.lead.reverse⟩, [], previous, false⟩ text
    written "/**".toList
  rw [← List.append_assoc] at lead
  rw [read_glob_of _ _ (lead.trans (read.trans (read_below _ _))) rfl]
  simp

end Reading

section Matching

variable (pieces : List Piece) (text : Text)

theorem accepts_segments :
    allAccept List.isEmpty pieces (Text.utf8 text) = true ↔
      ∃ rest, Text.pieces '/' text = Text.pieces '/' rest ∧ allAccept List.isEmpty pieces (Text.utf8 rest) = true := by
  constructor
  · exact fun holds => ⟨text, rfl, holds⟩
  · rintro ⟨rest, same, holds⟩
    rwa [← Text.joined_pieces '/' text, same, Text.joined_pieces]

theorem some_below_segments :
    someBelow (allAccept List.isEmpty pieces) (Text.utf8 text) = true ↔
      ∃ above rest, Text.pieces '/' text = above ++ Text.pieces '/' rest ∧ above ≠ [] ∧
        allAccept List.isEmpty pieces (Text.utf8 rest) = true := by
  rw [some_below_iff]
  constructor
  · rintro ⟨front, back, cut, holds⟩
    obtain ⟨a, b, rfl, -, rfl⟩ := Text.cut_at_char '/' rfl text front back cut
    exact ⟨_, b, Text.pieces_append '/' a b, Text.pieces_ne_nil '/' a, holds⟩
  · rintro ⟨above, rest, cut, some, holds⟩
    obtain ⟨a, b, rfl, -, same⟩ := Text.pieces_divided '/' text above _ some (Text.pieces_ne_nil '/' rest) cut
    exact ⟨Text.utf8 a, Text.utf8 b, Text.utf8_append a ('/' :: b), (accepts_segments pieces b).mpr ⟨rest, same, holds⟩⟩

-- Where the glob of a tier goes on behind its lead, the segments above are admitted.
theorem Tier.lead_accepts (tier : Tier) :
    allAccept List.isEmpty (tier.lead ++ pieces) (Text.utf8 text) = true ↔
      ∃ above rest, Text.pieces '/' text = above ++ Text.pieces '/' rest ∧ tier.Admits above ∧
        allAccept List.isEmpty pieces (Text.utf8 rest) = true := by
  have here := accepts_segments pieces text
  have below := some_below_segments pieces text
  cases tier with
  | anywhere =>
      simp only [lead, List.singleton_append, allAccept, Piece.accepts, Bool.or_eq_true, here, Admits, true_and]
      rw [below]
      constructor
      · rintro (⟨rest, same, holds⟩ | ⟨above, rest, cut, -, holds⟩)
        · exact ⟨[], rest, same, holds⟩
        · exact ⟨above, rest, cut, holds⟩
      · rintro ⟨above, rest, cut, holds⟩
        by_cases none : above = []
        · exact .inl ⟨rest, by rw [cut, none, List.nil_append], holds⟩
        · exact .inr ⟨above, rest, cut, none, holds⟩
  | atTop =>
      simp only [lead, List.nil_append, Admits]
      rw [here]
      constructor
      · rintro ⟨rest, same, holds⟩
        exact ⟨[], rest, same, rfl, holds⟩
      · rintro ⟨_, rest, same, rfl, holds⟩
        exact ⟨rest, same, holds⟩
  | nested =>
      simp only [lead, List.cons_append, List.nil_append, allAccept, run_between_accepts, Admits]
      exact below

end Matching

section Names

variable (names : List Text) (words : ∀ name ∈ names, IsWord name)
include words

theorem choice_last (some : names ≠ []) :
    ∃ last, (choice names).getLast? = Option.some last ∧ last ≠ .anyAbove ∧ last ≠ .literal '.' := by
  match names with
  | [] => exact absurd rfl some
  | [name] =>
      obtain ⟨nonempty, -, ends⟩ := words name List.mem_cons_self
      obtain ⟨front, c, rfl⟩ := List.eq_nil_or_concat name |>.resolve_left nonempty
      refine ⟨.literal c, by simp [choice, word], by simp, ?_⟩
      rintro ⟨rfl⟩
      exact ends (by simp)
  | _ :: _ :: _ => exact ⟨_, rfl, by simp, by simp⟩

theorem pieces_of_word (name rest : Text) (member : name ∈ names) :
    Text.pieces '/' (name ++ '/' :: rest) = name :: Text.pieces '/' rest ∧ Text.pieces '/' name = [name] := by
  have free : '/' ∉ name := fun inside => ((words name member).2.1 '/' inside).2.2.1 rfl
  have single := (Text.pieces_single_iff '/' name name).mpr ⟨rfl, free⟩
  exact ⟨by rw [Text.pieces_append, single, List.singleton_append], single⟩

theorem word_of_bytes (name text : Text) (rest : Bytes) (member : name ∈ names)
    (cut : Text.utf8 text = Text.utf8 name ++ rest) : ∃ behind, text = name ++ behind ∧ Text.utf8 behind = rest :=
  Text.word_leads name (fun c inside => ((words name member).2.1 c inside).2.1) text rest cut

theorem files_accepts (text : Text) :
    allAccept List.isEmpty (choice names ++ [.anyBelow]) (Text.utf8 text) = true ↔
      ∃ name below, Text.pieces '/' text = name :: below ∧ below ≠ [] ∧ name ∈ names := by
  rw [choice_accepts]
  constructor
  · rintro ⟨name, member, rest, cut, holds⟩
    obtain ⟨behind, rfl, rfl⟩ := word_of_bytes names words name text rest member cut
    cases bytes : Text.utf8 behind with
    | nil => simp [bytes, allAccept, Piece.accepts] at holds
    | cons byte others =>
        simp only [bytes, allAccept, Piece.accepts, Bool.and_eq_true, beq_iff_eq] at holds
        rw [holds.1] at bytes
        obtain ⟨a, b, rfl, none, -⟩ := Text.cut_at_char '/' rfl behind [] others bytes
        rw [Text.utf8_eq_nil a none, List.nil_append]
        exact ⟨name, _, (pieces_of_word names words name b member).1, Text.pieces_ne_nil '/' b, member⟩
  · rintro ⟨name, below, cut, some, member⟩
    obtain ⟨a, b, rfl, same, -⟩ := Text.pieces_divided '/' text [name] below (by simp) some cut
    obtain ⟨rfl, -⟩ := (Text.pieces_single_iff '/' a name).mp same
    refine ⟨a, member, Text.utf8 ('/' :: b), by rw [Text.utf8_append], ?_⟩
    have bytes : Text.utf8 ('/' :: b) = slash :: Text.utf8 b := rfl
    simp only [bytes, allAccept, Piece.accepts, beq_self_eq_true, Bool.true_and]
    exact some_rest_empty _

theorem stem_accepts (text : Text) :
    allAccept List.isEmpty (choice names) (Text.utf8 text) = true ↔
      ∃ name, Text.pieces '/' text = [name] ∧ name ∈ names := by
  have divided := choice_accepts List.isEmpty names [] (Text.utf8 text)
  rw [List.append_nil] at divided
  rw [divided]
  constructor
  · rintro ⟨name, member, rest, cut, none⟩
    obtain ⟨behind, rfl, rfl⟩ := word_of_bytes names words name text rest member cut
    rw [Text.utf8_eq_nil behind (List.isEmpty_iff.mp none), List.append_nil]
    exact ⟨name, (pieces_of_word names words name [] member).2, member⟩
  · rintro ⟨name, whole, member⟩
    obtain ⟨rfl, -⟩ := (Text.pieces_single_iff '/' text name).mp whole
    exact ⟨text, member, [], by rw [List.append_nil], rfl⟩

theorem Tier.files_match (tier : Tier) (source text : Text) :
    (⟨source, tier.lead ++ (choice names ++ [.anyBelow])⟩ : Glob).isMatch text = true ↔
      tier.Covers names (Text.pieces '/' text) := by
  rw [is_match_accepts source text _ .anyBelow (by simp) (by simp) (by simp), tier.lead_accepts]
  simp only [files_accepts names words]
  constructor
  · rintro ⟨above, rest, cut, admitted, name, below, behind, some, member⟩
    exact ⟨above, name, below, by rw [cut, behind], some, admitted, member⟩
  · rintro ⟨above, name, below, cut, some, admitted, member⟩
    obtain ⟨rest, behind⟩ := Text.pieces_behind '/' text above (name :: below) (List.cons_ne_nil _ _) cut
    exact ⟨above, rest, by rw [cut, behind], admitted, name, below, behind, some, member⟩

theorem Tier.stem_match (tier : Tier) (some : names ≠ []) (source text : Text) :
    (⟨source, tier.lead ++ choice names⟩ : Glob).isMatch text = true ↔ tier.Stops names (Text.pieces '/' text) := by
  obtain ⟨last, ends, several, noPoint⟩ := choice_last names words some
  rw [is_match_accepts source text _ last (by simp [ends]) several noPoint, tier.lead_accepts]
  simp only [stem_accepts names words]
  constructor
  · rintro ⟨above, rest, cut, admitted, name, behind, member⟩
    exact ⟨above, name, by rw [cut, behind], admitted, member⟩
  · rintro ⟨above, name, cut, admitted, member⟩
    obtain ⟨rest, behind⟩ := Text.pieces_behind '/' text above [name] (List.cons_ne_nil _ _) cut
    exact ⟨above, rest, by rw [cut, behind], admitted, name, behind, member⟩

end Names

end BlockSearch.Exclusion
