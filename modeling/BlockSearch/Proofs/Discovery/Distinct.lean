import BlockSearch.Engine
import BlockSearch.Proofs.Discovery.Admission
import BlockSearch.Proofs.Discovery.Walking
import BlockSearch.Proofs.FilePattern.Descent
import BlockSearch.Proofs.FileTree.Resolution

set_option autoImplicit false

namespace BlockSearch

namespace Path

def LiesIn (front : List Component) (path : Text) : Prop :=
  ∃ names : List Text, components path = front ++ names.map .name

theorem body_of_descends (pieces : List Text) (descends : ['.', '.'] ∉ pieces) :
    ∃ names : List Text, bodyComponents pieces = names.map .name := by
  refine ⟨pieces.filter fun piece => !isSilent piece, List.map_congr_left fun piece member => ?_⟩
  have other : piece ≠ ['.', '.'] := fun same => descends (same ▸ (List.mem_filter.mp member).1)
  rw [Component.ofPiece, if_neg other]

theorem lies_at_top (path : Text) (absolute : isAbsolute path = true) (descends : Descends path) :
    LiesIn [.root] path := by
  obtain ⟨rest, some, cut⟩ := (is_absolute_pieces path).mp absolute
  obtain ⟨names, body⟩ := body_of_descends rest fun member => descends (cut ▸ List.mem_cons_of_mem _ member)
  exact ⟨names, by rw [components, lead_root path rest cut some, body]⟩

theorem lies_below (directory path : Text) (nonempty : directory ≠ []) (relative : isAbsolute path = false)
    (descends : Descends path) : LiesIn (components directory) (join directory path) := by
  obtain ⟨names, body⟩ := body_of_descends _ descends
  exact ⟨names, by rw [components_join directory nonempty path relative, body]⟩

theorem components_walked (base : Text) (nonempty : base ≠ []) (names : List Text) (way : IsWay names) :
    components (names.foldl join base) = components base ++ names.map .name := by
  rw [join_names base names way, components_names base nonempty names way]

theorem LiesIn.walked {front : List Component} {base : Text} (lies : LiesIn front base) (nonempty : base ≠ [])
    (names : List Text) (way : IsWay names) : LiesIn front (names.foldl join base) := by
  obtain ⟨above, same⟩ := lies
  exact ⟨above ++ names, by rw [components_walked base nonempty names way, same, List.map_append, List.append_assoc]⟩

end Path

namespace FileTree

theorem resolve_eq (tree : FileTree) (path : Text) :
    tree.resolve path = (Path.components path).foldl Path.Component.enter (Path.resolveFrom [] tree.workingDirectory) :=
  rfl

theorem resolve_walked (tree : FileTree) (base : Text) (nonempty : base ≠ []) (names : List Text) (way : IsWay names) :
    tree.resolve (names.foldl Path.join base) = tree.resolve base ++ names := by
  rw [resolve_eq, Path.components_walked base nonempty names way, List.foldl_append, Path.enter_names, resolve_eq]

theorem resolve_apart (tree : FileTree) (front : List Path.Component) (a b : Text) (first : Path.LiesIn front a)
    (second : Path.LiesIn front b) (apart : Path.components a ≠ Path.components b) : tree.resolve a ≠ tree.resolve b := by
  obtain ⟨namesA, sameA⟩ := first
  obtain ⟨namesB, sameB⟩ := second
  intro same
  rw [resolve_eq, resolve_eq, sameA, sameB, List.foldl_append, List.foldl_append,
    Path.enter_names, Path.enter_names, List.append_cancel_left_eq] at same
  exact apart (by rw [sameA, sameB, same])

end FileTree

def Target.start : Target → Text
  | .file path => path
  | .walk target => target.base

theorem Plan.candidate_found (tree : FileTree) (plain : tree.top.isPlain = true) (plan : Plan) (limits : WalkLimits)
    (candidate : Candidate) (member : .ok candidate ∈ plan.candidates tree limits) :
    (∃ content, tree.top.fileAt? (tree.resolve candidate.path) = some content ∧ content.length = candidate.size) ∧
      ∃ target ∈ plan.targets, candidate.path = target.start ∨
        target.start ≠ [] ∧ ∃ names, IsWay names ∧ candidate.path = names.foldl Path.join target.start := by
  obtain ⟨target, planted, found⟩ := List.mem_flatMap.mp member
  cases target with
  | file path =>
      rw [Target.candidates] at found
      split at found
      · rename_i content there
        cases List.mem_singleton.mp found
        have stands := tree.find_resolves plain path _ ((tree.file_iff path content).mp there)
        exact ⟨⟨content, stands, rfl⟩, _, planted, .inl rfl⟩
      · exact absurd found List.not_mem_nil
  | walk target =>
      rw [Target.candidates] at found
      rcases target.candidate_cases tree plan.root limits with none | ⟨location, visit, there, some, here, shape⟩
      · exact absurd found (none _ _)
      · obtain ⟨file, walked, -, rfl⟩ := (shape _ _).mp found
        obtain ⟨stands, top, names⟩ := tree.find_resolves plain _ _ ((tree.directory_iff _ _).mp there)
        have plainInside := stands.plain (top ▸ plain)
        obtain ⟨way, content, inside, path, size⟩ :=
          visit.files_found _ _ location.current plainInside file walked
        have isWay := location.current.file_at_way plainInside way content inside
        rw [here] at path
        refine ⟨⟨content, ?_, size.symm⟩, _, planted, .inr ⟨some, way, isWay, path⟩⟩
        rw [WalkedFile.candidate, path, tree.resolve_walked target.base some way isWay, ← names, ← top,
          stands.file_at way isWay.nonempty, inside]

namespace Plan

theorem walk_target_start (tree : FileTree) (root pattern : Text) (target : Target)
    (given : walkTarget tree root pattern = .ok (some target)) : target.start = baseOf root pattern := by
  unfold walkTarget at given
  split at given
  · cases given
  · split at given
    · cases given
      rfl
    · cases given

theorem lead_descends (pattern : Text) (descends : Path.Descends pattern) : Path.Descends (leadOf pattern) := by
  have inside : ∀ segment ∈ literalSegments pattern, segment ∈ Text.pieces '/' pattern := fun segment member =>
    (List.takeWhile_sublist _).subset member
  rw [Path.Descends, lead_of_eq, Text.pieces_terminated '/' _ fun segment member =>
    Text.piece_free '/' pattern segment (inside segment member), List.mem_append, not_or]
  exact ⟨fun member => descends (inside _ member), by decide⟩

theorem lead_absolute (pattern : Text) (some : pattern ≠ []) (leads : leadOf pattern ≠ []) :
    Path.isAbsolute (leadOf pattern) = Path.isAbsolute pattern := by
  obtain ⟨first, rest, cut⟩ := List.exists_cons_of_ne_nil (Text.pieces_ne_nil '/' pattern)
  have literal : literalSegments pattern ≠ [] := by
    intro none
    rw [lead_of_eq, none] at leads
    exact leads rfl
  obtain ⟨behind, segments⟩ : ∃ behind, literalSegments pattern = first :: behind := by
    unfold literalSegments at literal ⊢
    rw [cut, List.takeWhile_cons] at literal ⊢
    split
    · exact ⟨_, rfl⟩
    · rename_i special
      rw [if_neg special] at literal
      exact absurd rfl literal
  have lead : leadOf pattern = first ++ '/' :: Text.terminated '/' behind := by
    rw [lead_of_eq, segments]
    simp [Text.terminated]
  by_cases root : first = []
  · subst root
    have further : rest ≠ [] := by
      rintro rfl
      exact some ((Text.pieces_single_iff '/' pattern []).mp cut).1
    have absolute := (Path.is_absolute_pieces pattern).mpr ⟨rest, further, cut⟩
    rw [absolute, lead, Path.is_absolute_iff]
    rfl
  · have relative : Path.isAbsolute pattern = false := by
      rw [← Bool.not_eq_true, Path.is_absolute_pieces]
      rintro ⟨others, -, same⟩
      exact root (List.cons.inj (cut.symm.trans same)).1
    have free := Text.piece_free '/' pattern first (cut ▸ List.mem_cons_self)
    rw [relative, lead, ← Bool.not_eq_true, Path.is_absolute_iff, List.head?_append_of_ne_nil _ root]
    exact fun slash => free (List.mem_of_head? slash)

section Front

def Holds (front : List Path.Component) (root pattern : Text) : Prop :=
  ∀ path, Path.Descends path → Path.isAbsolute path = Path.isAbsolute pattern →
    Path.LiesIn front (Path.join root path)

variable (front : List Path.Component) (root : Text) (rooted : Path.LiesIn front root)
include rooted

theorem base_lies (pattern : Text) (some : pattern ≠ []) (descends : Path.Descends pattern)
    (holds : Holds front root pattern) : Path.LiesIn front (baseOf root pattern) := by
  unfold baseOf
  split
  · exact rooted
  · rename_i leads
    exact holds _ (lead_descends pattern descends) (lead_absolute pattern some (by simpa using leads))

theorem target_lies (tree : FileTree) (mapped : Text) (descends : Path.Descends mapped)
    (plainLast : FilePattern.hasGlobChars mapped = false → mapped ≠ [] ∧ mapped.getLast? ≠ some '/')
    (holds : Holds front root (Path.undotted mapped)) (given : Target)
    (made : target tree root mapped = .ok (some given)) : Path.LiesIn front given.start := by
  have inner := descends.undotted
  simp only [target] at made
  by_cases special : FilePattern.hasGlobChars (Path.undotted mapped) = true
  · rw [if_pos special] at made
    have some : Path.undotted mapped ≠ [] := by
      intro none
      rw [none] at special
      exact absurd special (by decide)
    rw [walk_target_start tree root _ given made]
    exact base_lies front root rooted _ some inner holds
  · rw [if_neg special] at made
    rw [Path.undotted_special, Bool.not_eq_true] at special
    obtain ⟨some, last⟩ := plainLast special
    obtain ⟨innerSome, innerLast⟩ := Path.undotted_last mapped some last
    split at made
    · cases made
      exact holds _ inner rfl
    · -- A directory that is named like a file is walked as if a slash stood behind it.
      rw [walk_target_start tree root _ given made, widened_eq _ innerLast]
      have files : Path.Descends FilePattern.recursiveFiles := by decide +kernel
      refine base_lies front root rooted _ (by simp) ((Path.descends_append _ _).mpr ⟨inner, files⟩) ?_
      intro path down alike
      rw [Path.is_absolute_append _ _ innerSome] at alike
      exact holds path down alike
    · cases made

end Front

end Plan

-- The root and the patterns lead nowhere up from one front: the top, or the root, where no pattern leaves it.
theorem Path.common_front (root : Text) (patterns : List Text)
    (anchored : isAbsolute root = true ∧ Descends root ∨
      root ≠ [] ∧ ∀ pattern ∈ patterns, isAbsolute (undotted (FilePattern.complete pattern)) = false) :
    ∃ front, LiesIn front root ∧
      ∀ pattern ∈ patterns, Plan.Holds front root (undotted (FilePattern.complete pattern)) := by
  rcases anchored with ⟨absolute, descends⟩ | ⟨nonempty, relative⟩
  · have top := lies_at_top root absolute descends
    refine ⟨[.root], top, fun pattern _ path down _ => ?_⟩
    by_cases elsewhere : isAbsolute path = true
    · rw [join, if_pos (by simp [elsewhere])]
      exact lies_at_top path elsewhere down
    · have nonempty : root ≠ [] := by
        rintro rfl
        exact absurd absolute (by decide)
      obtain ⟨above, same⟩ := top
      obtain ⟨names, further⟩ := lies_below root path nonempty (Bool.not_eq_true _ ▸ elsewhere) down
      exact ⟨above ++ names, by rw [further, same, List.map_append, List.append_assoc]⟩
  · refine ⟨components root, ⟨[], (List.append_nil _).symm⟩, fun pattern member path down alike => ?_⟩
    exact lies_below root path nonempty (alike.trans (relative pattern member)) down

-- An empty pattern and one that begins with `.//` are read as absolute ones.
theorem discover_each_once (tree : FileTree) (settings : Settings) (patterns : List Text) (plan : Plan)
    (limits : WalkLimits) (plain : tree.top.isPlain = true) (planned : Engine.plan tree settings patterns = .ok plan)
    (descends : ∀ pattern ∈ patterns, Path.Descends pattern)
    (anchored : Path.isAbsolute settings.root = true ∧ Path.Descends settings.root ∨
      settings.root ≠ [] ∧
        ∀ pattern ∈ patterns, Path.isAbsolute (Path.undotted (FilePattern.complete pattern)) = false) :
    (∀ entry, .ok entry ∈ plan.discover tree limits →
      ∃ content, tree.top.fileAt? (tree.resolve entry.location) = some content ∧ content.length = entry.size) ∧
    (plan.discover tree limits).Pairwise fun a b => ∀ first second, a = .ok first → b = .ok second →
      tree.resolve first.location ≠ tree.resolve second.location := by
  obtain ⟨front, rooted, holds⟩ := Path.common_front settings.root patterns anchored
  obtain ⟨-, gathered⟩ := Plan.make_root _ _ _ _ _ planned
  have targets : ∀ target ∈ plan.targets, Path.LiesIn front target.start := by
    intro target member
    obtain ⟨mapped, present, made⟩ := Plan.gather_source _ _ _ gathered target member
    obtain ⟨pattern, requested, rfl⟩ := List.mem_map.mp present
    exact Plan.target_lies front settings.root rooted tree _
      (FilePattern.complete_descends pattern (descends pattern requested))
      (FilePattern.complete_plain_last pattern) (holds pattern requested) target made
  -- Every entry comes from a candidate, whose path goes down from the front.
  have entries : ∀ entry, .ok entry ∈ plan.discover tree limits → Path.LiesIn front entry.location ∧
      ∃ content, tree.top.fileAt? (tree.resolve entry.location) = some content ∧ content.length = entry.size := by
    intro entry member
    obtain ⟨candidate, order, present, -, -, rfl⟩ := Admission.entries_source plan _ _ _ entry member
    obtain ⟨file, target, planted, start⟩ := Plan.candidate_found tree plain plan limits candidate present
    have begins := targets target planted
    have lies : Path.LiesIn front candidate.path := by
      rcases start with same | ⟨nonempty, names, way, same⟩
      · rw [same]
        exact begins
      · rw [same]
        exact begins.walked nonempty names way
    exact ⟨lies, file⟩
  refine ⟨fun entry member => (entries entry member).2, ?_⟩
  have apart := Admission.entries_apart plan limits.maxFileSize Admission.start (plan.candidates tree limits)
  refine apart.imp_of_mem ?_
  rintro _ _ here there differ first second rfl rfl
  exact tree.resolve_apart front _ _ (entries first here).1 (entries second there).1 (differ first second rfl rfl)

-- One file by its name, by the name of its directory, and by its absolute path with slashes and points to spare.
theorem discover_each_once_overlapping :
    let tree : FileTree := ⟨.entry ['w'] (.directory (.entry "src".toList (.directory
      (.entry "a.ts".toList (.file [10]) .empty)) .empty)) .empty, "/w".toList⟩
    let settings := Settings.initial "/w".toList
    let patterns := ["src/a.ts".toList, "src".toList, ".".toList, "/w//src/./a.ts".toList]
    ∃ plan, Engine.plan tree settings patterns = .ok plan ∧
      (plan.discover tree (Engine.walkLimits settings)).Pairwise fun a b =>
        ∀ first second, a = .ok first → b = .ok second →
          tree.resolve first.location ≠ tree.resolve second.location := by
  intro tree settings patterns
  obtain ⟨plan, planned, -⟩ := Plan.of_given (Engine.plan tree settings patterns) Plan.isEmpty false (by decide +kernel)
  exact ⟨plan, planned, (discover_each_once tree settings patterns plan _ (by decide +kernel) planned (by decide +kernel)
    (.inl (by decide +kernel))).2⟩

-- With two points in one of the names, a file is discovered under both.
theorem discovered_twice :
    let tree : FileTree := ⟨.entry ['w'] (.directory (.entry "src".toList (.directory
      (.entry "a.ts".toList (.file [10]) .empty)) .empty)) .empty, "/w".toList⟩
    let settings := Settings.initial "/w".toList
    tree.resolve "/w/src/../src/a.ts".toList = tree.resolve "/w/src/a.ts".toList ∧
      (Engine.plan tree settings ["src/a.ts".toList, "src/../src/a.ts".toList]).toOption.map
          (fun plan => plan.discover tree (Engine.walkLimits settings)) =
        some [.ok ⟨"src/a.ts".toList, "/w/src/a.ts".toList, 1, 0⟩,
          .ok ⟨"src/../src/a.ts".toList, "/w/src/../src/a.ts".toList, 1, 1⟩] := by
  decide +kernel

end BlockSearch
