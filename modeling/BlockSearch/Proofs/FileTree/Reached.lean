import BlockSearch.Proofs.FileTree.Names

set_option autoImplicit false

namespace BlockSearch

mutual
def Node.hasNames : Node → Bool
  | .directory entries => entries.hasNames
  | _ => true

def Directory.hasNames : Directory → Bool
  | .empty => true
  | .entry name node rest => decide (IsName name) && node.hasNames && rest.hasNames
end

theorem Directory.find_has_names (directory : Directory) (named : directory.hasNames = true) (name : Text) (node : Node)
    (found : directory.find? name = some node) : node.hasNames = true := by
  cases directory with
  | empty => simp [find?] at found
  | entry other first rest =>
      simp only [hasNames, Bool.and_eq_true] at named
      by_cases same : other = name
      · simp only [find?, if_pos same, Option.some.injEq] at found
        exact found ▸ named.1.2
      · simp only [find?, if_neg same] at found
        exact find_has_names rest named.2 name node found

namespace Location

structure HasNames (location : Location) : Prop where
  top : location.top.hasNames = true
  inner : ∀ entry ∈ location.inner, entry.2.hasNames = true

namespace HasNames

variable {location : Location} (named : location.HasNames)
include named

theorem current : location.current.hasNames = true := by
  unfold Location.current
  split
  · exact named.top
  · rename_i inner
    exact named.inner _ (inner ▸ List.mem_cons_self)

theorem up : location.up.HasNames := ⟨named.top, fun entry member => named.inner entry (List.mem_of_mem_tail member)⟩

theorem atTop : location.atTop.HasNames := ⟨named.top, fun _ member => absurd member List.not_mem_nil⟩

theorem down (name : Text) (directory : Directory) (inside : directory.hasNames = true) :
    (location.down name directory).HasNames := by
  refine ⟨named.top, fun entry member => ?_⟩
  rcases List.mem_cons.mp member with rfl | outer
  · exact inside
  · exact named.inner entry outer

end HasNames

theorem walk_has_names (again : Location → List Text → Option Found)
    (keeps : ∀ (location : Location) pieces (reached : Location), location.HasNames →
      again location pieces = some (.directory reached) → reached.HasNames)
    (location reached : Location) (pieces : List Text) (named : location.HasNames)
    (found : walk again location pieces = some (.directory reached)) : reached.HasNames := by
  induction pieces generalizing location with
  | nil =>
      simp only [walk, Option.some.injEq, Found.directory.injEq] at found
      exact found ▸ named
  | cons piece rest ih =>
      simp only [walk] at found
      split at found
      · exact ih location named found
      · split at found
        · exact ih _ named.up found
        · split at found
          · cases found
          · rename_i there
            exact ih _ (named.down piece _ (location.current.find_has_names named.current piece _ there)) found
          · split at found <;> cases found
          · refine keeps _ _ reached ?_ found
            split
            · exact named.atTop
            · exact named

theorem follow_has_names (links : Nat) (location reached : Location) (pieces : List Text) (named : location.HasNames)
    (found : follow links location pieces = some (.directory reached)) : reached.HasNames := by
  induction links generalizing location reached pieces with
  | zero =>
      refine walk_has_names _ ?_ location reached pieces named found
      intro _ _ _ _ impossible
      cases impossible
  | succ links ih => exact walk_has_names _ (fun location pieces reached => ih location reached pieces) _ _ _ named found

theorem find_has_names (location reached : Location) (path : Text) (named : location.HasNames)
    (found : location.find? path = some (.directory reached)) : reached.HasNames := by
  unfold find? at found
  split at found
  · cases found
  · refine follow_has_names _ _ reached _ ?_ found
    split
    · exact named.atTop
    · exact named

end Location

theorem FileTree.directory_has_names (tree : FileTree) (named : tree.top.hasNames = true) (path : Text)
    (reached : Location) (there : tree.directory? path = some reached) : reached.current.hasNames = true := by
  have top : Location.HasNames ⟨tree.top, []⟩ := ⟨named, fun _ member => absurd member List.not_mem_nil⟩
  rw [directory_iff, find?] at there
  split at there
  · exact (Location.find_has_names _ reached path top there).current
  · split at there
    · rename_i working begins
      exact (Location.find_has_names _ reached path (Location.find_has_names _ working _ top begins) there).current
    · cases there

end BlockSearch
