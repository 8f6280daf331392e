import BlockSearch.Engine
import BlockSearch.Proofs.Discovery.Admission
import BlockSearch.Proofs.Discovery.Walking
import BlockSearch.Proofs.Exclusion.Convention
import BlockSearch.Proofs.FileTree.Reached
import BlockSearch.Proofs.FileTree.Shown

set_option autoImplicit false

namespace BlockSearch

section Walk

variable (setting : WalkSetting)

mutual
theorem Node.files_below (visit : Visit) (levels : Nat) (name : Text) (isName : IsName name) (node : Node)
    (named : node.hasNames = true) (file : WalkedFile) (member : file ∈ node.files setting visit levels name) :
    ∃ names, IsWay names ∧ file.path = names.foldl Path.join visit.path := by
  have single : IsWay [name] := ⟨List.cons_ne_nil _ _, by simpa using isName⟩
  cases node with
  | file content =>
      rw [Node.files] at member
      split at member
      · exact absurd member List.not_mem_nil
      · rw [List.mem_singleton.mp member]
        exact ⟨[name], single, rfl⟩
  | link target => exact absurd member List.not_mem_nil
  | directory entries =>
      cases levels with
      | zero => exact absurd member List.not_mem_nil
      | succ levels =>
          rw [Node.files] at member
          split at member
          · exact absurd member List.not_mem_nil
          · obtain ⟨names, way, path⟩ := entries.files_below (visit.enter setting.tree name) levels named file member
            exact ⟨name :: names, ⟨List.cons_ne_nil _ _, List.forall_mem_cons.mpr ⟨isName, way.valid⟩⟩, path⟩

theorem Directory.files_below (visit : Visit) (levels : Nat) (entries : Directory) (named : entries.hasNames = true)
    (file : WalkedFile) (member : file ∈ entries.files setting visit levels) :
    ∃ names, IsWay names ∧ file.path = names.foldl Path.join visit.path := by
  cases entries with
  | empty => exact absurd member List.not_mem_nil
  | entry name node rest =>
      simp only [Directory.hasNames, Bool.and_eq_true, decide_eq_true_eq] at named
      rcases List.mem_append.mp member with here | later
      · exact node.files_below visit levels name named.1.1 named.1.2 file here
      · exact rest.files_below visit levels named.2 file later
end

structure WalkSetting.Opens (setting other : WalkSetting) : Prop where
  tree : other.tree = setting.tree
  fewer : ∀ path, other.prunes path = true → setting.prunes path = true

mutual
theorem Node.files_more (other : WalkSetting) (opens : setting.Opens other) (visit : Visit) (levels : Nat) (name : Text)
    (node : Node) (file : WalkedFile) (member : file ∈ node.files setting visit levels name) :
    file ∈ node.files other visit levels name := by
  cases node with
  | file content => exact member
  | link target => exact member
  | directory entries =>
      cases levels with
      | zero => exact member
      | succ levels =>
          rw [Node.files] at member ⊢
          by_cases stopped : (visit.leavesOut name true || other.prunes (Path.join visit.path name)) = true
          · have more : (visit.leavesOut name true || setting.prunes (Path.join visit.path name)) = true :=
              (Bool.or_eq_true _ _).mpr (((Bool.or_eq_true _ _).mp stopped).imp id (opens.fewer _))
            rw [if_pos more] at member
            exact absurd member List.not_mem_nil
          · rw [if_neg stopped, opens.tree]
            split at member
            · exact absurd member List.not_mem_nil
            · exact entries.files_more other opens _ levels file member

theorem Directory.files_more (other : WalkSetting) (opens : setting.Opens other) (visit : Visit) (levels : Nat)
    (entries : Directory) (file : WalkedFile) (member : file ∈ entries.files setting visit levels) :
    file ∈ entries.files other visit levels := by
  cases entries with
  | empty => exact member
  | entry name node rest =>
      rcases List.mem_append.mp member with here | later
      · exact List.mem_append_left _ (node.files_more other opens visit levels name file here)
      · exact List.mem_append_right _ (rest.files_more other opens visit levels file later)
end

theorem Visit.files_more (other : WalkSetting) (opens : setting.Opens other) (visit : Visit) (entries : Directory)
    (levels : Nat) : visit.files setting entries levels ⊆ visit.files other entries levels := by
  cases levels with
  | zero => exact List.Subset.refl _
  | succ levels => exact fun file member => entries.files_more setting other opens visit levels file member

def WalkSetting.unpruned (setting : WalkSetting) : WalkSetting := { setting with pruned := [] }

variable (base : Text) (keep : WalkedFile → Bool)

-- Nothing that is kept lies below a directory that is pruned on the way down from the base.
def WalkSetting.Covers : Prop :=
  ∀ names more, IsWay names → IsWay more → setting.prunes (names.foldl Path.join base) = true →
    ∀ file, file.path = (names ++ more).foldl Path.join base → keep file = false

mutual
theorem Node.files_pruned (covers : setting.Covers base keep) (visit : Visit) (above : List Text)
    (valid : ∀ name ∈ above, IsName name) (here : visit.path = above.foldl Path.join base) (levels : Nat) (name : Text)
    (isName : IsName name) (node : Node) (named : node.hasNames = true) :
    (node.files setting visit levels name).filter keep =
      (node.files setting.unpruned visit levels name).filter keep := by
  cases node with
  | file content => rfl
  | link target => rfl
  | directory entries =>
      cases levels with
      | zero => rfl
      | succ levels =>
          have way : IsWay (above ++ [name]) := ⟨by simp, by simpa [or_imp, forall_and] using ⟨valid, isName⟩⟩
          have path : Path.join visit.path name = (above ++ [name]).foldl Path.join base := by
            rw [List.foldl_append, here]
            rfl
          have inside :=
            entries.files_pruned covers (visit.enter setting.tree name) (above ++ [name]) way.valid path levels named
          simp only [Node.files]
          by_cases left : visit.leavesOut name true = true
          · simp [left]
          · have free : setting.unpruned.prunes (Path.join visit.path name) = false := rfl
            simp only [free, Bool.or_false, if_neg left]
            by_cases pruned : setting.prunes (Path.join visit.path name) = true
            · -- All that the other walk finds here is not kept.
              rw [if_pos (by simp [pruned]), List.filter_nil, eq_comm, List.filter_eq_nil_iff]
              intro file member
              obtain ⟨names, further, found⟩ := entries.files_below setting.unpruned _ levels named file member
              rw [Bool.not_eq_true]
              refine covers _ names way further (path ▸ pruned) file ?_
              rw [found, List.foldl_append, ← path]
              rfl
            · rw [if_neg (by simp [left, pruned])]
              exact inside

theorem Directory.files_pruned (covers : setting.Covers base keep) (visit : Visit) (above : List Text)
    (valid : ∀ name ∈ above, IsName name) (here : visit.path = above.foldl Path.join base) (levels : Nat)
    (entries : Directory) (named : entries.hasNames = true) :
    (entries.files setting visit levels).filter keep = (entries.files setting.unpruned visit levels).filter keep := by
  cases entries with
  | empty => rfl
  | entry name node rest =>
      simp only [Directory.hasNames, Bool.and_eq_true, decide_eq_true_eq] at named
      rw [Directory.files, Directory.files, List.filter_append, List.filter_append,
        node.files_pruned covers visit above valid here levels name named.1.1 named.1.2,
        rest.files_pruned covers visit above valid here levels named.2]
end

end Walk

namespace Exclusion

-- No name of a directory above the root keeps that directory out of a walk.
def OpenAbove (patterns : List Text) (root : Text) : Prop :=
  ∀ name, .name name ∈ (Path.components root).dropLast → ∀ segment ∈ segments name,
    segment ∉ Tier.anywhere.kept patterns ∧ segment ∉ Tier.nested.kept patterns

theorem shut_leaves_out (patterns : List Text) (directory more : Text) (shut : Shuts patterns (segments directory)) :
    LeavesOut patterns (segments (directory ++ '/' :: more)) := by
  obtain ⟨tier, above, name, cut, admitted, member⟩ := shut
  refine .inr ⟨tier, above, name, segments more, ?_, Text.pieces_by_ne_nil _ more, admitted, member⟩
  rw [segments_append, cut, List.append_assoc, List.singleton_append]

theorem not_shut_nothing (patterns : List Text) : ¬ Shuts patterns (segments []) := by
  rintro ⟨tier, above, name, cut, -, member⟩
  have single : segments [] = [] ++ [[]] := rfl
  rw [single, List.append_singleton_inj] at cut
  exact (tier.kept_words patterns name member).1 cut.2.symm

theorem shut_name (patterns : List Text) (path name : Text) (above : List Text) (some : above ≠ [])
    (cut : Text.pieces '/' path = above ++ [name]) (shut : Shuts patterns (segments path)) :
    ∃ segment ∈ segments name, segment ∈ Tier.anywhere.kept patterns ∨ segment ∈ Tier.nested.kept patterns := by
  have parts : segments path = above.flatMap segments ++ segments name := by
    rw [← Text.joined_pieces '/' path, cut, segments_joined _ (by simp), List.flatMap_append, List.flatMap_singleton]
  obtain ⟨tier, front, segment, ends, admitted, member⟩ := shut
  obtain ⟨inner, last, within⟩ := List.eq_nil_or_concat (segments name) |>.resolve_left (Text.pieces_by_ne_nil _ name)
  rw [parts, within, List.concat_eq_append, ← List.append_assoc, List.append_singleton_inj] at ends
  obtain ⟨outer, rfl⟩ := ends
  refine ⟨last, by simp [within], ?_⟩
  cases tier with
  | anywhere => exact .inl member
  | nested => exact .inr member
  | atTop =>
      obtain ⟨first, others, rfl⟩ := List.exists_cons_of_ne_nil some
      rw [Tier.Admits, ← outer, List.flatMap_cons] at admitted
      exact absurd (List.append_eq_nil_iff.mp (List.append_eq_nil_iff.mp admitted).1).1 (Text.pieces_by_ne_nil _ first)

end Exclusion

namespace Admission

def counts (plan : Plan) : Except WalkFault Candidate → Bool
  | .error _ => true
  | .ok candidate => !isExcluded plan candidate

theorem entries_counting (plan : Plan) (maxFileSize : Nat) (admission : Admission)
    (candidates : List (Except WalkFault Candidate)) :
    admission.entries plan maxFileSize (candidates.filter (counts plan)) =
      admission.entries plan maxFileSize candidates := by
  induction candidates generalizing admission with
  | nil => rfl
  | cons item rest ih =>
      cases item with
      | error fault => rw [List.filter_cons_of_pos rfl, entries, entries, ih]
      | ok candidate =>
          by_cases excluded : isExcluded plan candidate = true
          · rw [List.filter_cons_of_neg (by simp [counts, excluded]), ih,
              entries_passes_by plan maxFileSize admission candidate (by simp [Passes, excluded])]
          · rw [List.filter_cons_of_pos (by simp [counts, excluded]), entries, entries]
            simp only [ih]

end Admission

section Planned

open Exclusion

variable (tree : FileTree) (settings : Settings) (patterns : List Text) (plan : Plan)
  (planned : Engine.plan tree settings patterns = .ok plan)
include planned

theorem Plan.excludes_iff (candidate : Candidate) :
    Admission.isExcluded plan candidate = true ↔
      candidate.named = false ∧ LeavesOut patterns (segments (Path.shown settings.root candidate.path)) := by
  obtain ⟨root, -⟩ := Plan.make_root _ _ _ _ _ planned
  obtain ⟨exclusions, gathered, excluded, -⟩ := Plan.make_exclusions _ _ _ _ _ planned
  rw [Admission.isExcluded, Bool.and_eq_true, Bool.not_eq_true', excluded, root,
    excluded_iff patterns exclusions gathered, segments_eq]

theorem Plan.prunes_iff (path : Text) :
    Glob.anyMatch plan.pruned (Path.slashed path) = true ↔ Shuts patterns (segments path) := by
  obtain ⟨exclusions, gathered, -, pruned⟩ := Plan.make_exclusions _ _ _ _ _ planned
  rw [pruned, pruned_iff patterns exclusions gathered, segments_eq]

theorem Plan.covers (base : Text) (nonempty : base ≠ [])
    (stands : Path.below settings.root base = none → OpenAbove patterns settings.root) :
    WalkSetting.Covers ⟨tree, plan.root, plan.pruned⟩ base
      fun file => !Admission.isExcluded plan ⟨file.path, file.size, false⟩ := by
  intro names more way further shut file path
  obtain ⟨root, -⟩ := Plan.make_root _ _ _ _ _ planned
  obtain ⟨front, name, rfl⟩ := List.eq_nil_or_concat names |>.resolve_left way.nonempty
  rw [List.concat_eq_append] at way shut path
  obtain ⟨ends, above, some, cut⟩ := Path.walked_ends base nonempty front name way
  rw [WalkSetting.prunes, root, Plan.prunes_iff tree settings patterns plan planned] at shut
  rw [Bool.not_eq_false', Plan.excludes_iff tree settings patterns plan planned, path,
    Path.walked_further base _ more way further]
  refine ⟨rfl, ?_⟩
  rcases Path.shown_further settings.root _ name ends more further with longer | itself | ⟨apart, inside⟩
  · rw [longer]
    exact shut_leaves_out patterns _ _ shut
  · exact absurd (itself ▸ shut) (not_shut_nothing patterns)
  · -- The root lies below a directory that is not entered.
    have outside : Path.below settings.root base = none := by
      by_contra somewhere
      have below := Path.below_walked base nonempty settings.root _ way (Option.isSome_iff_ne_none.mpr somewhere)
      rw [apart] at below
      exact absurd below Bool.false_ne_true
    have itself : Path.shown settings.root ((front ++ [name]).foldl Path.join base) =
        (front ++ [name]).foldl Path.join base := by rw [Path.shown, apart, Option.getD_none]
    rw [itself] at shut
    obtain ⟨segment, within, member⟩ := shut_name patterns _ name above some cut shut
    have free := stands outside name inside segment within
    exact member.elim (absurd · free.1) (absurd · free.2)

theorem WalkTarget.candidates_unpruned (named : tree.top.hasNames = true) (limits : WalkLimits) (target : WalkTarget)
    (stands : Path.below settings.root target.base = none → OpenAbove patterns settings.root) :
    (target.candidates tree plan.root plan.pruned limits).filter (Admission.counts plan) =
      (target.candidates tree plan.root [] limits).filter (Admission.counts plan) := by
  rcases target.candidates_cases tree plan.root limits with none | ⟨location, faults, visit, there, some, here, found⟩
  · rw [none, none]
  · have files : (visit.files ⟨tree, plan.root, plan.pruned⟩ location.current (target.levels limits)).filter
          (fun file => !Admission.isExcluded plan file.candidate) =
        (visit.files ⟨tree, plan.root, []⟩ location.current (target.levels limits)).filter
          fun file => !Admission.isExcluded plan file.candidate := by
      cases target.levels limits with
      | zero => rfl
      | succ levels =>
          exact location.current.files_pruned _ target.base _
            (Plan.covers tree settings patterns plan planned target.base some stands) visit [] (by simp) here levels
            (tree.directory_has_names named target.base location there)
    -- What a walk wants of the files that count are the files it wants, of which some do not count.
    have wanted (files : List WalkedFile) :
        ((files.filter target.wants).map fun file => Except.ok file.candidate).filter (Admission.counts plan) =
          ((files.filter fun file => !Admission.isExcluded plan file.candidate).filter target.wants).map
            fun file => Except.ok file.candidate := by
      rw [List.filter_map, List.filter_filter, List.filter_filter]
      exact congrArg _ (List.filter_congr fun file _ => Bool.and_comm _ _)
    rw [found, found, List.filter_append, List.filter_append, wanted, wanted, files]

end Planned

def Plan.unpruned (plan : Plan) : Plan := { plan with pruned := [] }

theorem Admission.entries_unpruned (plan : Plan) (maxFileSize : Nat) (admission : Admission)
    (candidates : List (Except WalkFault Candidate)) :
    admission.entries plan.unpruned maxFileSize candidates = admission.entries plan maxFileSize candidates :=
  entries_alike plan.unpruned maxFileSize plan rfl rfl admission candidates

theorem discover_unpruned (tree : FileTree) (settings : Settings) (patterns : List Text) (plan : Plan)
    (limits : WalkLimits) (named : tree.top.hasNames = true)
    (planned : Engine.plan tree settings patterns = .ok plan)
    (stands : ∀ target, .walk target ∈ plan.targets → Path.below settings.root target.base = none →
      Exclusion.OpenAbove patterns settings.root) :
    plan.discover tree limits = plan.unpruned.discover tree limits := by
  have kept : (plan.candidates tree limits).filter (Admission.counts plan) =
      (plan.unpruned.candidates tree limits).filter (Admission.counts plan) := by
    simp only [Plan.candidates, List.filter_flatMap]
    apply List.flatMap_congr
    intro target member
    cases target with
    | file path => rfl
    | walk target =>
        exact target.candidates_unpruned tree settings patterns plan planned named limits (stands target member)
  rw [Plan.discover, Plan.discover, Admission.entries_unpruned, ← Admission.entries_counting, kept,
    Admission.entries_counting]

-- A walk that begins above the root, and a directory that it does not enter.
theorem discover_unpruned_above_root :
    let tree : FileTree := ⟨.entry ['w'] (.directory
      (.entry "node_modules".toList (.directory (.entry "b.ts".toList (.file [10]) .empty))
        (.entry "proj".toList (.directory (.entry "a.ts".toList (.file [10]) .empty)) .empty))) .empty, "/w".toList⟩
    let settings := Settings.initial "/w/proj".toList
    ∃ plan, Engine.plan tree settings ["/w/**/*.ts".toList] = .ok plan ∧
      plan.discover tree (Engine.walkLimits settings) = plan.unpruned.discover tree (Engine.walkLimits settings) := by
  intro tree settings
  obtain ⟨plan, planned, -⟩ := Plan.of_given (Engine.plan tree settings ["/w/**/*.ts".toList]) Plan.isEmpty false
    (by decide +kernel)
  refine ⟨plan, planned, discover_unpruned tree settings _ plan _ (by decide +kernel) planned ?_⟩
  intro target _ _ name above
  have components : (Path.components settings.root).dropLast = [.root, .name ['w']] := by decide +kernel
  simp only [components, List.mem_cons, reduceCtorEq, Path.Component.name.injEq, List.not_mem_nil, or_false,
    false_or] at above
  rw [above]
  decide +kernel

-- A root below a directory that is left out: files below the root are not excluded, and yet not found.
theorem root_among_packages_missed :
    let tree : FileTree := ⟨.entry ['w'] (.directory (.entry "node_modules".toList (.directory
      (.entry "proj".toList (.directory (.entry "a.ts".toList (.file [10]) .empty)) .empty)) .empty)) .empty,
      "/w".toList⟩
    let settings := Settings.initial "/w/node_modules/proj".toList
    (Engine.plan tree settings ["/w/**/*.ts".toList]).toOption.map (fun plan =>
        (plan.discover tree (Engine.walkLimits settings), plan.unpruned.discover tree (Engine.walkLimits settings))) =
      some ([], [.ok ⟨"a.ts".toList, "/w/node_modules/proj/a.ts".toList, 1, 0⟩]) := by
  decide +kernel

end BlockSearch
