import BlockSearch.Proofs.Discovery.Planning
import BlockSearch.Proofs.Exclusion.Tiers
import BlockSearch.Proofs.FileTree.Names

set_option autoImplicit false

namespace BlockSearch.Exclusion

open Glob

theorem segments_eq (text : Text) : segments text = Text.pieces '/' (Path.slashed text) := by
  induction text with
  | nil => rfl
  | cons c rest ih =>
      simp only [segments, Text.pieces, Path.slashed, List.map_cons, Text.piecesBy] at ih ⊢
      rw [ih]
      by_cases backslash : c = '\x5c' <;> simp [backslash]

theorem segments_append (front back : Text) : segments (front ++ '/' :: back) = segments front ++ segments back :=
  Text.pieces_by_append _ '/' rfl front back

theorem segments_joined (parts : List Text) (some : parts ≠ []) :
    segments (Text.joined ['/'] parts) = parts.flatMap segments := Text.pieces_by_joined _ '/' rfl parts some

theorem segments_of_name (name : Text) (isName : IsName name) (straight : '\x5c' ∉ name) : segments name = [name] := by
  rw [segments_eq, Path.slashed_straight name straight, Text.pieces_single_iff]
  exact ⟨rfl, isName.2.2.2⟩

def IsNoise (name : Text) : Prop :=
  ['_'] <+: name ∨ ".test.".toList <:+: name ∨ ".spec.".toList <:+: name ∨ ".min.".toList <:+: name

def IsMark (mark : Text) : Prop := ∀ c ∈ mark, c.utf8Size = 1 ∧ c ≠ '/'

instance (mark : Text) : Decidable (IsMark mark) := List.decidableBAll _ mark

section Noise

variable (mark text : Text) (narrow : IsMark mark)
include narrow

theorem mark_run_accepts :
    allAccept List.isEmpty (word mark ++ [.anyRun]) (Text.utf8 text) = true ↔ mark <+: text ∧ '/' ∉ text := by
  have free : '/' ∉ mark := fun inside => (narrow '/' inside).2 rfl
  simp only [word_accepts, allAccept, Piece.accepts, some_within_empty]
  constructor
  · rintro ⟨rest, cut, within⟩
    obtain ⟨behind, rfl, rfl⟩ := Text.word_leads mark (fun c inside => (narrow c inside).1) text rest cut
    rw [slash_free_iff] at within
    exact ⟨List.prefix_append _ _, by simp [free, within]⟩
  · rintro ⟨⟨behind, rfl⟩, within⟩
    refine ⟨Text.utf8 behind, Text.utf8_append _ _, ?_⟩
    rw [slash_free_iff]
    exact fun inside => within (List.mem_append_right _ inside)

theorem run_mark_run_accepts (some : mark ≠ []) :
    allAccept List.isEmpty (.anyRun :: (word mark ++ [.anyRun])) (Text.utf8 text) = true ↔
      mark <:+: text ∧ '/' ∉ text := by
  have free : '/' ∉ mark := fun inside => (narrow '/' inside).2 rfl
  rw [allAccept, Piece.accepts, some_within_iff]
  simp only [word_accepts, allAccept, Piece.accepts, some_within_empty]
  constructor
  · rintro ⟨taken, _, cut, before, rest, rfl, within⟩
    obtain ⟨front, behind, rfl, rfl, rfl⟩ :=
      Text.word_inside mark (fun c inside => (narrow c inside).1) some text taken rest cut
    rw [slash_free_iff] at before within
    exact ⟨⟨front, behind, by rw [List.append_assoc]⟩, by simp [before, free, within]⟩
  · rintro ⟨⟨front, behind, rfl⟩, within⟩
    simp only [List.mem_append, not_or] at within
    refine ⟨Text.utf8 front, Text.utf8 mark ++ Text.utf8 behind, ?_, ?_, Text.utf8 behind, rfl, ?_⟩
    · rw [List.append_assoc, Text.utf8_append, Text.utf8_append]
    · rw [slash_free_iff]
      exact within.1.1
    · rw [slash_free_iff]
      exact within.2

end Noise

def noisePieces : List Piece :=
  [.alternatives [.anyRun :: (word ".test.".toList ++ [.anyRun]), .anyRun :: (word ".spec.".toList ++ [.anyRun]),
    word ['_'] ++ [.anyRun], .anyRun :: (word ".min.".toList ++ [.anyRun])]]

theorem read_noise :
    Plan.exclusionGlobs noiseFiles =
      .ok (some (⟨Plan.unmarked noiseFiles, Tier.anywhere.lead ++ noisePieces⟩, none)) := by
  rfl

theorem noise_accepts (text : Text) :
    allAccept List.isEmpty noisePieces (Text.utf8 text) = true ↔ IsNoise text ∧ '/' ∉ text := by
  have test := run_mark_run_accepts ".test.".toList text (by decide +kernel) (by decide +kernel)
  have specification := run_mark_run_accepts ".spec.".toList text (by decide +kernel) (by decide +kernel)
  have underscore := mark_run_accepts ['_'] text (by decide +kernel)
  have minified := run_mark_run_accepts ".min.".toList text (by decide +kernel) (by decide +kernel)
  have branches (bytes : Bytes) : allAccept List.isEmpty noisePieces bytes =
      (allAccept List.isEmpty (.anyRun :: (word ".test.".toList ++ [.anyRun])) bytes ||
        (allAccept List.isEmpty (.anyRun :: (word ".spec.".toList ++ [.anyRun])) bytes ||
          (allAccept List.isEmpty (word ['_'] ++ [.anyRun]) bytes ||
            (allAccept List.isEmpty (.anyRun :: (word ".min.".toList ++ [.anyRun])) bytes || false)))) := rfl
  rw [branches, Bool.or_false, Bool.or_eq_true, Bool.or_eq_true, Bool.or_eq_true, test, specification, underscore,
    minified, IsNoise]
  constructor
  · rintro (⟨marked, free⟩ | ⟨marked, free⟩ | ⟨marked, free⟩ | ⟨marked, free⟩)
    · exact ⟨.inr (.inl marked), free⟩
    · exact ⟨.inr (.inr (.inl marked)), free⟩
    · exact ⟨.inl marked, free⟩
    · exact ⟨.inr (.inr (.inr marked)), free⟩
  · rintro ⟨marked | marked | marked | marked, free⟩
    · exact .inr (.inr (.inl ⟨marked, free⟩))
    · exact .inl ⟨marked, free⟩
    · exact .inr (.inl ⟨marked, free⟩)
    · exact .inr (.inr (.inr ⟨marked, free⟩))

theorem noise_match (source text : Text) :
    (⟨source, Tier.anywhere.lead ++ noisePieces⟩ : Glob).isMatch text = true ↔
      ∃ above last, Text.pieces '/' text = above ++ [last] ∧ IsNoise last := by
  rw [is_match_accepts source text _ (.alternatives _) rfl (by simp) (by simp), Tier.lead_accepts]
  simp only [noise_accepts, Tier.Admits, true_and]
  constructor
  · rintro ⟨above, rest, cut, noise, free⟩
    exact ⟨above, rest, by rw [cut, (Text.pieces_single_iff '/' rest rest).mpr ⟨rfl, free⟩], noise⟩
  · rintro ⟨above, last, cut, noise⟩
    obtain ⟨rest, behind⟩ := Text.pieces_behind '/' text above [last] (List.cons_ne_nil _ _) cut
    obtain ⟨rfl, free⟩ := (Text.pieces_single_iff '/' rest last).mp behind
    exact ⟨above, rest, by rw [cut, behind], noise, free⟩

def Tier.fragment (tier : Tier) (patterns : List Text) : Option Text :=
  Exclusion.tier ('!' :: tier.before) tier.directories patterns

theorem mem_fragments_iff (patterns : List Text) (fragment : Text) :
    fragment ∈ fragments patterns ↔ fragment = noiseFiles ∨ ∃ tier : Tier, tier.fragment patterns = some fragment := by
  have listed : fragments patterns = noiseFiles :: Tier.all.filterMap (Tier.fragment · patterns) := rfl
  have complete (tier : Tier) : tier ∈ Tier.all := by cases tier <;> decide
  simp [listed, List.mem_filterMap, complete]

theorem alternation_head (names : List Text) (words : ∀ name ∈ names, IsWord name) (text : Text)
    (written : alternation names = some text) : ∃ c rest, text = c :: rest ∧ c ≠ '!' := by
  match names with
  | [] => cases written
  | [name] =>
      cases written
      obtain ⟨nonempty, plain, -⟩ := words _ List.mem_cons_self
      obtain ⟨c, rest, same⟩ := List.exists_cons_of_ne_nil nonempty
      exact ⟨c, rest, same, (plain c (same ▸ List.mem_cons_self)).2.2.2⟩
  | _ :: _ :: _ =>
      cases written
      exact ⟨'{', _, rfl, by decide⟩

theorem unmarked_before (tier : Tier) (c : Char) (rest : Text) (plain : c ≠ '!') :
    Plan.unmarked ('!' :: (tier.before ++ c :: rest)) = tier.before ++ c :: rest := by
  cases tier with
  | atTop => simp [Plan.unmarked, Tier.before, plain]
  | _ => rfl

theorem Tier.fragment_globs (tier : Tier) (patterns : List Text) (fragment : Text)
    (written : tier.fragment patterns = some fragment) :
    ∃ files directory, Plan.exclusionGlobs fragment = .ok (some (files, some directory)) ∧
      ∀ text, (files.isMatch text = true ↔ tier.Covers (tier.kept patterns) (Text.pieces '/' text)) ∧
        (directory.isMatch text = true ↔ tier.Stops (tier.kept patterns) (Text.pieces '/' text)) := by
  have words := tier.kept_words patterns
  obtain ⟨names, alternatives, rfl⟩ := Option.map_eq_some_iff.mp written
  have some : tier.kept patterns ≠ [] := by
    intro none
    rw [Tier.kept] at none
    rw [none] at alternatives
    cases alternatives
  obtain ⟨c, rest, rfl, plain⟩ := alternation_head _ words names alternatives
  have unmarked : Plan.unmarked ('!' :: tier.before ++ c :: rest ++ "/**".toList) =
      tier.before ++ c :: rest ++ "/**".toList := by
    simpa only [List.append_assoc, List.cons_append] using unmarked_before tier c (rest ++ "/**".toList) plain
  refine ⟨⟨tier.before ++ c :: rest ++ "/**".toList, tier.lead ++ (choice (tier.kept patterns) ++ [.anyBelow])⟩,
    ⟨tier.before ++ c :: rest, tier.lead ++ choice (tier.kept patterns)⟩, ?_,
    fun text => ⟨tier.files_match _ words _ text, tier.stem_match _ words some _ text⟩⟩
  simp only [Plan.exclusionGlobs, unmarked, tier.read_files _ words _ alternatives, directoryStem,
    Text.before_tail_append, tier.read_stem _ words _ alternatives]

def LeavesOut (patterns segments : List Text) : Prop :=
  (∃ above last, segments = above ++ [last] ∧ IsNoise last) ∨ ∃ tier : Tier, tier.Covers (tier.kept patterns) segments

def Shuts (patterns segments : List Text) : Prop := ∃ tier : Tier, tier.Stops (tier.kept patterns) segments

theorem any_match_iff (globs : List Glob) (text : Text) :
    anyMatch globs text = true ↔ ∃ glob ∈ globs, glob.isMatch text = true := List.any_eq_true

theorem Tier.covered_fragment (tier : Tier) (patterns segments : List Text)
    (covered : tier.Covers (tier.kept patterns) segments ∨ tier.Stops (tier.kept patterns) segments) :
    ∃ fragment, tier.fragment patterns = some fragment := by
  have some : tier.kept patterns ≠ [] := by
    rintro none
    rw [none] at covered
    rcases covered with ⟨_, _, _, -, -, -, member⟩ | ⟨_, _, -, -, member⟩ <;> exact List.not_mem_nil member
  match names : tier.kept patterns with
  | [] => exact absurd names some
  | [_] => exact ⟨_, by rw [Tier.fragment, Exclusion.tier, ← Tier.kept, names]; rfl⟩
  | _ :: _ :: _ => exact ⟨_, by rw [Tier.fragment, Exclusion.tier, ← Tier.kept, names]; rfl⟩

theorem fragments_readable (patterns : List Text) :
    ∃ exclusions, Plan.gather Plan.exclusionGlobs (fragments patterns) = .ok exclusions := by
  rw [Plan.gather_ok_iff]
  intro fragment member
  rcases (mem_fragments_iff patterns fragment).mp member with rfl | ⟨tier, written⟩
  · exact ⟨_, read_noise⟩
  · obtain ⟨files, directory, globs, -⟩ := tier.fragment_globs patterns fragment written
    exact ⟨_, globs⟩

section Exclusions

variable (patterns : List Text) (exclusions : List (Glob × Option Glob))
  (gathered : Plan.gather Plan.exclusionGlobs (fragments patterns) = .ok exclusions) (text : Text)
include gathered

theorem excluded_iff :
    anyMatch (exclusions.map Prod.fst) text = true ↔ LeavesOut patterns (Text.pieces '/' text) := by
  simp only [any_match_iff, List.mem_map]
  constructor
  · rintro ⟨_, ⟨⟨files, directory⟩, member, rfl⟩, found⟩
    obtain ⟨fragment, present, globs⟩ := Plan.gather_source _ _ _ gathered _ member
    rcases (mem_fragments_iff patterns fragment).mp present with rfl | ⟨tier, written⟩
    · rw [read_noise] at globs
      cases globs
      exact .inl ((noise_match _ text).mp found)
    · obtain ⟨_, _, same, matched⟩ := tier.fragment_globs patterns fragment written
      rw [same] at globs
      cases globs
      exact .inr ⟨tier, (matched text).1.mp found⟩
  · rintro (noise | ⟨tier, covered⟩)
    · have member := Plan.gather_member _ _ _ _ _ gathered ((mem_fragments_iff patterns _).mpr (.inl rfl)) read_noise
      exact ⟨_, ⟨_, member, rfl⟩, (noise_match _ text).mpr noise⟩
    · obtain ⟨fragment, written⟩ := tier.covered_fragment patterns _ (.inl covered)
      obtain ⟨files, directory, globs, matched⟩ := tier.fragment_globs patterns fragment written
      have member := Plan.gather_member _ _ _ _ _ gathered
        ((mem_fragments_iff patterns _).mpr (.inr ⟨tier, written⟩)) globs
      exact ⟨files, ⟨_, member, rfl⟩, (matched text).1.mpr covered⟩

theorem pruned_iff :
    anyMatch (exclusions.filterMap Prod.snd) text = true ↔ Shuts patterns (Text.pieces '/' text) := by
  simp only [any_match_iff, List.mem_filterMap]
  constructor
  · rintro ⟨directory, ⟨⟨files, _⟩, member, rfl⟩, found⟩
    obtain ⟨fragment, present, globs⟩ := Plan.gather_source _ _ _ gathered _ member
    rcases (mem_fragments_iff patterns fragment).mp present with rfl | ⟨tier, written⟩
    · rw [read_noise] at globs
      cases globs
    · obtain ⟨_, _, same, matched⟩ := tier.fragment_globs patterns fragment written
      rw [same] at globs
      cases globs
      exact ⟨tier, (matched text).2.mp found⟩
  · rintro ⟨tier, stopped⟩
    obtain ⟨fragment, written⟩ := tier.covered_fragment patterns _ (.inr stopped)
    obtain ⟨files, directory, globs, matched⟩ := tier.fragment_globs patterns fragment written
    have member := Plan.gather_member _ _ _ _ _ gathered
      ((mem_fragments_iff patterns _).mpr (.inr ⟨tier, written⟩)) globs
    exact ⟨directory, ⟨_, member, rfl⟩, (matched text).2.mpr stopped⟩

end Exclusions

-- The directories above a file that a tier looks at.
def Tier.looksAt : Tier → List Text → List Text
  | .anywhere, above => above
  | .atTop, above => above.head?.toList
  | .nested, above => above.tail

theorem Tier.looks_at_iff (tier : Tier) (above : List Text) (name : Text) :
    name ∈ tier.looksAt above ↔ ∃ front behind, above = front ++ name :: behind ∧ tier.Admits front := by
  cases tier with
  | anywhere => simp [looksAt, Admits, List.mem_iff_append]
  | atTop =>
      simp only [looksAt, Admits, Option.mem_toList, List.head?_eq_some_iff]
      constructor
      · rintro ⟨behind, rfl⟩
        exact ⟨[], behind, rfl, rfl⟩
      · rintro ⟨_, behind, rfl, rfl⟩
        exact ⟨behind, rfl⟩
  | nested =>
      simp only [looksAt, Admits, List.mem_iff_append]
      constructor
      · rintro ⟨front, behind, cut⟩
        obtain ⟨first, rest, rfl⟩ := List.exists_cons_of_ne_nil (fun none : above = [] => by simp [none] at cut)
        exact ⟨first :: front, behind, by rw [List.cons_append, ← cut, List.tail_cons], List.cons_ne_nil _ _⟩
      · rintro ⟨front, behind, rfl, some⟩
        exact ⟨front.tail, behind, List.tail_append_of_ne_nil some⟩

theorem Tier.covers_iff (tier : Tier) (names above : List Text) (last : Text) :
    tier.Covers names (above ++ [last]) ↔ ∃ name ∈ tier.looksAt above, name ∈ names := by
  simp only [Covers, looks_at_iff]
  constructor
  · rintro ⟨front, name, below, cut, some, admitted, member⟩
    obtain ⟨behind, other, rfl⟩ := List.eq_nil_or_concat below |>.resolve_left some
    rw [List.concat_eq_append, ← List.cons_append, ← List.append_assoc, List.append_singleton_inj] at cut
    exact ⟨name, ⟨front, behind, cut.1, admitted⟩, member⟩
  · rintro ⟨name, ⟨front, behind, rfl, admitted⟩, member⟩
    exact ⟨front, name, behind ++ [last], by simp, by simp, admitted, member⟩

theorem Tier.kept_iff (tier : Tier) (patterns : List Text) (name : Text) :
    name ∈ tier.kept patterns ↔ name ∈ tier.directories ∧ ∀ pattern ∈ patterns, name ∉ segments pattern := by
  simp [kept, isNamed]

theorem excluded_by_convention (patterns : List Text) :
    ∃ exclusions, Plan.gather Plan.exclusionGlobs (fragments patterns) = .ok exclusions ∧
      ∀ (above : List Text) (last : Text), (∀ name ∈ above ++ [last], IsName name ∧ '\x5c' ∉ name) →
        (anyMatch (exclusions.map Prod.fst) (Path.slashed (Text.joined ['/'] (above ++ [last]))) = true ↔
          (['_'] <+: last ∨ ".test.".toList <:+: last ∨ ".spec.".toList <:+: last ∨ ".min.".toList <:+: last) ∨
          (∃ name ∈ above, name ∈ globalDirectories ∧ ∀ pattern ∈ patterns, name ∉ segments pattern) ∨
          (∃ name ∈ above.head?, name ∈ rootDirectories ∧ ∀ pattern ∈ patterns, name ∉ segments pattern) ∨
          ∃ name ∈ above.tail, name ∈ nestedDirectories ∧ ∀ pattern ∈ patterns, name ∉ segments pattern) := by
  obtain ⟨exclusions, gathered⟩ := fragments_readable patterns
  refine ⟨exclusions, gathered, ?_⟩
  intro above last names
  have single : (above ++ [last]).flatMap segments = above ++ [last] := by
    rw [List.flatMap_congr fun name member => segments_of_name name (names name member).1 (names name member).2]
    exact List.flatMap_singleton' _
  have noise : (∃ front name, above ++ [last] = front ++ [name] ∧ IsNoise name) ↔ IsNoise last := by
    constructor
    · rintro ⟨front, name, cut, marked⟩
      rwa [(List.append_singleton_inj.mp cut).2]
    · exact fun marked => ⟨above, last, rfl, marked⟩
  have tiers : (∃ tier : Tier, tier.Covers (tier.kept patterns) (above ++ [last])) ↔
      (∃ name ∈ above, name ∈ Tier.anywhere.kept patterns) ∨ (∃ name ∈ above.head?, name ∈ Tier.atTop.kept patterns) ∨
        ∃ name ∈ above.tail, name ∈ Tier.nested.kept patterns := by
    simp only [Tier.covers_iff]
    constructor
    · rintro ⟨tier, name, looked, member⟩
      cases tier with
      | anywhere => exact .inl ⟨name, looked, member⟩
      | atTop => exact .inr (.inl ⟨name, Option.mem_toList.mp looked, member⟩)
      | nested => exact .inr (.inr ⟨name, looked, member⟩)
    · rintro (⟨name, looked, member⟩ | ⟨name, looked, member⟩ | ⟨name, looked, member⟩)
      · exact ⟨.anywhere, name, looked, member⟩
      · exact ⟨.atTop, name, Option.mem_toList.mpr looked, member⟩
      · exact ⟨.nested, name, looked, member⟩
  rw [excluded_iff patterns exclusions gathered, ← segments_eq, segments_joined _ (by simp), single, LeavesOut, noise,
    tiers]
  simp only [Tier.kept_iff]
  rfl

-- Scripts are left out below another directory, and kept at the top.
theorem excluded_among_scripts :
    ∃ exclusions, Plan.gather Plan.exclusionGlobs (fragments ["src".toList]) = .ok exclusions ∧
      anyMatch (exclusions.map Prod.fst) "packages/scripts/a.ts".toList = true ∧
      anyMatch (exclusions.map Prod.fst) "scripts/a.ts".toList = false := by
  obtain ⟨exclusions, gathered, matched⟩ := excluded_by_convention ["src".toList]
  have nested := matched ["packages".toList, "scripts".toList] "a.ts".toList (by decide +kernel)
  have top := matched ["scripts".toList] "a.ts".toList (by decide +kernel)
  refine ⟨exclusions, gathered, nested.mpr (.inr (.inr (.inr ?_))), ?_⟩
  · exact ⟨"scripts".toList, by decide +kernel, by decide +kernel, by decide +kernel⟩
  · exact Bool.eq_false_iff.mpr fun found => absurd (top.mp found) (by decide +kernel)

end BlockSearch.Exclusion
