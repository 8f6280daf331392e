import BlockSearch.Engine
import BlockSearch.Proofs.Discovery.Planning

set_option autoImplicit false

namespace BlockSearch

namespace Exclusion

theorem is_named_slash (name pattern : Text) (some : name ≠ []) :
    isNamed name [pattern ++ ['/']] = isNamed name [pattern] := by
  have cut : segments (pattern ++ ['/']) = segments pattern ++ [[]] := Text.pieces_by_append _ '/' rfl pattern []
  simp [isNamed, cut, some]

theorem tier_slash (before : Text) (directories : List Text) (pattern : Text) (some : ∀ name ∈ directories, name ≠ []) :
    tier before directories [pattern ++ ['/']] = tier before directories [pattern] := by
  have kept : directories.filter (fun name => !isNamed name [pattern ++ ['/']]) =
      directories.filter fun name => !isNamed name [pattern] := by
    apply List.filter_congr
    intro name member
    rw [is_named_slash name pattern (some name member)]
  rw [tier, kept, tier]

theorem fragments_slash (pattern : Text) : fragments [pattern ++ ['/']] = fragments [pattern] := by
  rw [fragments, tier_slash _ globalDirectories _ (by decide), tier_slash _ rootDirectories _ (by decide),
    tier_slash _ nestedDirectories _ (by decide), fragments]

end Exclusion

namespace FilePattern

theorem has_glob_chars_append (a b : Text) : hasGlobChars (a ++ b) = (hasGlobChars a || hasGlobChars b) :=
  List.any_append

end FilePattern

namespace Plan

theorem target_of_directory (tree : FileTree) (root directory : Text) (reached : Location)
    (plain : FilePattern.hasGlobChars directory = false) (last : directory.getLast? ≠ some '/')
    (nonempty : directory ≠ []) (notHere : directory ≠ ['.'])
    (apart : Text.startsWith ".//".toList directory = false)
    (there : tree.directory? (Path.join root directory) = some reached) :
    target tree root directory = target tree root (directory ++ '/' :: FilePattern.recursiveFiles) := by
  obtain ⟨innerSome, innerLast⟩ := Path.undotted_last directory nonempty last
  have innerPlain := (Path.undotted_special directory).trans plain
  have found := FileTree.find_undotted tree root directory _ apart innerSome
    ((FileTree.directory_iff tree _ reached).mp there)
  have special : FilePattern.hasGlobChars (Path.undotted directory ++ '/' :: FilePattern.recursiveFiles) = true := by
    rw [FilePattern.has_glob_chars_append, innerPlain]
    decide +kernel
  simp only [target, Path.undotted_append directory _ nonempty notHere, innerPlain, special, Bool.false_eq_true,
    if_false, if_true, found, widened_eq _ innerLast]

theorem make_slash (tree : FileTree) (root directory : Text)
    (same : target tree root (FilePattern.complete directory) =
      target tree root (FilePattern.complete (directory ++ ['/']))) :
    make tree root [FilePattern.complete directory] (Exclusion.fragments [directory]) =
      make tree root [FilePattern.complete (directory ++ ['/'])] (Exclusion.fragments [directory ++ ['/']]) := by
  simp only [make, Exclusion.fragments_slash, gather_single, same]

end Plan

theorem discover_with_slash (tree : FileTree) (settings : Settings) (directory : Text)
    (plain : FilePattern.hasGlobChars directory = false) (last : directory.getLast? ≠ some '/')
    (there : (tree.directory? (Path.join settings.root directory)).isSome = true)
    (kept : FilePattern.namesExtension directory = true →
      FilePattern.withTypesPackage directory = directory ∧ Text.startsWith ".//".toList directory = false) :
    (Engine.plan tree settings [directory]).map (fun plan => plan.discover tree (Engine.walkLimits settings)) =
      (Engine.plan tree settings [directory ++ ['/']]).map
        fun plan => plan.discover tree (Engine.walkLimits settings) := by
  have same : Plan.target tree settings.root (FilePattern.complete directory) =
      Plan.target tree settings.root (FilePattern.complete (directory ++ ['/'])) := by
    cases named : FilePattern.namesExtension directory with
    | false => rw [FilePattern.complete_unnamed directory plain last named]
    | true =>
        obtain ⟨unchanged, apart⟩ := kept named
        obtain ⟨reached, there⟩ := Option.isSome_iff_exists.mp there
        have nonempty : directory ≠ [] := by
          rintro rfl
          exact absurd named (by decide +kernel)
        have notHere : directory ≠ ['.'] := by
          rintro rfl
          exact absurd named (by decide +kernel)
        rw [FilePattern.complete_named directory named, FilePattern.complete_slash, if_neg notHere, unchanged]
        exact Plan.target_of_directory tree settings.root directory reached plain last nonempty notHere apart there
  have planned : Engine.plan tree settings [directory] = Engine.plan tree settings [directory ++ ['/']] :=
    Plan.make_slash tree settings.root directory same
  rw [planned]

theorem discover_with_slash_of_bundle :
    let tree : FileTree := ⟨.entry ['w'] (.directory
      (.entry "my.app".toList (.directory (.entry "a.ts".toList (.file [10]) .empty)) .empty)) .empty, "/w".toList⟩
    let settings := Settings.initial "/w".toList
    (tree.directory? "/w/my.app".toList).isSome = true ∧
      (Engine.plan tree settings ["my.app".toList]).map
          (fun plan => plan.discover tree (Engine.walkLimits settings)) =
        (Engine.plan tree settings ["my.app/".toList]).map
          fun plan => plan.discover tree (Engine.walkLimits settings) := by
  intro tree settings
  have there : (tree.directory? "/w/my.app".toList).isSome = true := by decide +kernel
  exact ⟨there, discover_with_slash tree settings "my.app".toList (by decide +kernel) (by decide +kernel) there
    (by decide +kernel)⟩

-- Below `node_modules` the name stays the name of a file, which the types are offered for, and no file has it.
theorem package_directory_missed :
    let tree : FileTree := ⟨.entry ['w'] (.directory (.entry "node_modules".toList (.directory
      (.entry "chart.js".toList (.directory (.entry "a.js".toList (.file [10]) .empty)) .empty)) .empty)) .empty,
      "/w".toList⟩
    let settings := Settings.initial "/w".toList
    let discovered := fun pattern => (Engine.plan tree settings [pattern]).toOption.map
      fun plan => plan.discover tree (Engine.walkLimits settings)
    (tree.directory? "/w/node_modules/chart.js".toList).isSome = true ∧
      discovered "node_modules/chart.js".toList = some [] ∧
      discovered "node_modules/chart.js/".toList =
        some [.ok ⟨"node_modules/chart.js/a.js".toList, "/w/node_modules/chart.js/a.js".toList, 1, 0⟩] := by
  decide +kernel

end BlockSearch
