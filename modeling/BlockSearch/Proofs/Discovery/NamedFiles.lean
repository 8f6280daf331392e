import BlockSearch.Engine
import BlockSearch.Proofs.Discovery.Admission
import BlockSearch.Proofs.Discovery.Planning

set_option autoImplicit false

namespace BlockSearch

theorem discover_named_file (tree : FileTree) (settings : Settings) (patterns : List Text) (pattern : Text)
    (content : Bytes) (plan : Plan) (member : pattern ∈ patterns)
    (planned : Engine.plan tree settings patterns = .ok plan)
    (special : FilePattern.hasGlobChars pattern = false)
    (plain : ∀ piece ∈ Text.pieces '/' pattern, piece ≠ [] ∧ piece ≠ ['.'] ∧ piece ≠ ['.', '.'])
    (named : FilePattern.namesExtension pattern = true)
    (there : tree.file? (Path.join settings.root pattern) = some content)
    (small : content.length ≤ settings.maxFileSize)
    (unchanged : FilePattern.withTypesPackage pattern = pattern) :
    ∃ entry, .ok entry ∈ plan.discover tree (Engine.walkLimits settings) ∧
      Path.components entry.location = Path.components (Path.join settings.root pattern) := by
  have undotted := Path.undotted_plain pattern fun here => (plain _ here).2.1 rfl
  have target : Plan.target tree settings.root (FilePattern.complete pattern) =
      .ok (some (.file (Path.join settings.root pattern))) := by
    simp only [FilePattern.complete_named pattern named, unchanged, Plan.target, undotted, special,
      Bool.false_eq_true, if_false, (FileTree.file_iff tree _ content).mp there]
  obtain ⟨root, gathered⟩ := Plan.make_root _ _ _ _ _ planned
  have planted : Target.file (Path.join settings.root pattern) ∈ plan.targets :=
    Plan.gather_member _ _ _ _ _ gathered (List.mem_map_of_mem member) target
  have candidate : .ok ⟨Path.join settings.root pattern, content.length, true⟩ ∈
      plan.candidates tree (Engine.walkLimits settings) := by
    apply List.mem_flatMap.mpr
    refine ⟨_, planted, ?_⟩
    simp [Target.candidates, there]
  exact Admission.entries_complete plan _ Admission.start _ _ candidate ⟨rfl, small⟩ List.not_mem_nil

-- A test in a directory of build results, at a depth that no walk reaches.
theorem discover_named_test :
    let tree : FileTree := ⟨.entry ['w'] (.directory (.entry ".ignore".toList (.file (Text.utf8 "*\n".toList))
      (.entry "dist".toList (.directory (.entry "_a.test.ts".toList (.file [10]) .empty)) .empty))) .empty,
      "/w".toList⟩
    let settings : Settings := { Settings.initial "/w".toList with maxDepth := 0 }
    ∃ plan entry, Engine.plan tree settings [".".toList, "dist/_a.test.ts".toList] = .ok plan ∧
      .ok entry ∈ plan.discover tree (Engine.walkLimits settings) ∧
      Path.components entry.location = Path.components "/w/dist/_a.test.ts".toList := by
  intro tree settings
  cases planned : Engine.plan tree settings [".".toList, "dist/_a.test.ts".toList] with
  | error fault =>
      have readable : (Engine.plan tree settings [".".toList, "dist/_a.test.ts".toList]).toOption.isSome = true := by
        decide +kernel
      rw [planned] at readable
      exact absurd readable Bool.false_ne_true
  | ok plan =>
      obtain ⟨entry, found, same⟩ := discover_named_file tree settings _ "dist/_a.test.ts".toList [10] plan
        (by decide) planned (by decide +kernel) (by decide +kernel) (by decide +kernel) (by decide +kernel)
        (by decide +kernel) (by decide +kernel)
      exact ⟨plan, entry, rfl, found, same⟩

-- The types of a package are offered for this name, so it is a glob, which names no file.
theorem package_test_missed :
    let tree : FileTree := ⟨.entry ['w'] (.directory (.entry "node_modules".toList (.directory
      (.entry "pkg".toList (.directory (.entry "a.test.js".toList (.file [10]) .empty)) .empty)) .empty)) .empty,
      "/w".toList⟩
    let settings := Settings.initial "/w".toList
    let pattern := "node_modules/pkg/a.test.js".toList
    tree.file? (Path.join settings.root pattern) = some [10] ∧
      FilePattern.hasGlobChars pattern = false ∧ FilePattern.namesExtension pattern = true ∧
      (Engine.plan tree settings [pattern]).toOption.map
        (fun plan => plan.discover tree (Engine.walkLimits settings)) = some [] := by
  decide +kernel

end BlockSearch
