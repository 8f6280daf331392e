import BlockSearch.Proofs.FileTree.Names

set_option autoImplicit false

namespace BlockSearch

namespace Path

def Component.enter (names : List Text) : Component → List Text
  | .root => []
  | .current => names
  | .parent => names.dropLast
  | .name entry => names ++ [entry]

def resolveFrom (start : List Text) (path : Text) : List Text := (components path).foldl Component.enter start

theorem enter_names (start names : List Text) :
    (names.map Component.name).foldl Component.enter start = start ++ names := by
  induction names generalizing start with
  | nil => simp
  | cons name rest ih =>
      rw [List.map_cons, List.foldl_cons, ih]
      simp [Component.enter]

theorem is_absolute_pieces (path : Text) :
    isAbsolute path = true ↔ ∃ rest, rest ≠ [] ∧ Text.pieces '/' path = [] :: rest := by
  rw [is_absolute_iff]
  constructor
  · intro slash
    obtain ⟨behind, rfl⟩ := List.head?_eq_some_iff.mp slash
    exact ⟨_, Text.pieces_ne_nil '/' behind, Text.pieces_append '/' [] behind⟩
  · rintro ⟨rest, some, cut⟩
    obtain ⟨front, behind, rfl, none, -⟩ := Text.pieces_divided '/' path [[]] rest (List.cons_ne_nil _ _) some cut
    rw [((Text.pieces_single_iff '/' front []).mp none).1]
    rfl

theorem resolve_pieces (start : List Text) (path : Text) :
    resolveFrom start path =
      (bodyComponents (Text.pieces '/' path)).foldl Component.enter (if isAbsolute path then [] else start) := by
  obtain ⟨first, rest, cut⟩ := List.exists_cons_of_ne_nil (Text.pieces_ne_nil '/' path)
  by_cases absolute : isAbsolute path = true
  · obtain ⟨rest, some, cut⟩ := (is_absolute_pieces path).mp absolute
    rw [if_pos absolute, resolveFrom, components, lead_root path rest cut some, cut, body_components_quiet [] rest rfl]
    rfl
  · rw [if_neg absolute]
    by_cases here : first = ['.']
    · subst here
      rw [resolveFrom, components, lead_current path rest cut, cut, body_components_quiet ['.'] rest rfl]
      rfl
    · by_cases none : first = []
      · subst none
        have single : rest = [] := Decidable.byContradiction fun some =>
          absolute ((is_absolute_pieces path).mpr ⟨rest, some, cut⟩)
        rw [resolveFrom, components, cut, lead, cut, single]
        rfl
      · rw [resolveFrom, components, lead_named path first rest cut none here, cut, List.nil_append]

end Path

namespace Location

def standsIn (top : Directory) : List (Text × Directory) → Prop
  | [] => True
  | (name, directory) :: outer =>
      (Location.mk top outer).current.find? name = some (.directory directory) ∧ standsIn top outer

def Stands (location : Location) : Prop := standsIn location.top location.inner

namespace Stands

variable {location : Location} (stands : location.Stands)
include stands

theorem up : location.up.Stands := by
  obtain ⟨top, inner⟩ := location
  cases inner with
  | nil => exact stands
  | cons entry outer => exact stands.2

omit stands in
theorem atTop : location.atTop.Stands := trivial

theorem down (name : Text) (directory : Directory)
    (found : location.current.find? name = some (.directory directory)) : (location.down name directory).Stands :=
  ⟨found, stands⟩

theorem file_at (rest : List Text) (some : rest ≠ []) :
    location.top.fileAt? (location.names ++ rest) = location.current.fileAt? rest := by
  obtain ⟨top, inner⟩ := location
  induction inner generalizing rest with
  | nil => rfl
  | cons entry outer ih =>
      obtain ⟨name, directory⟩ := entry
      have further := ih (name :: rest) (List.cons_ne_nil _ _) stands.2
      simp only [names, List.map_cons, List.reverse_cons, List.append_assoc, List.singleton_append] at further ⊢
      rw [further, Directory.fileAt?, Node.fileAt?, stands.1, Option.bind_some]
      rfl

theorem plain (top : location.top.isPlain = true) : location.current.isPlain = true := by
  obtain ⟨outermost, inner⟩ := location
  induction inner with
  | nil => exact top
  | cons entry outer ih => exact (Directory.find_plain _ (ih stands.2 top) _ _ stands.1).2

end Stands

theorem names_up (location : Location) : location.up.names = location.names.dropLast := by
  obtain ⟨top, inner⟩ := location
  cases inner with
  | nil => rfl
  | cons entry outer => simp [names, up]

theorem names_down (location : Location) (name : Text) (directory : Directory) :
    (location.down name directory).names = location.names ++ [name] := by
  simp [names, down]

end Location

def Found.StandsAt (top : Directory) (names : List Text) : Found → Prop
  | .directory location => location.Stands ∧ location.top = top ∧ location.names = names
  | .file content => top.fileAt? names = some content

namespace Location

theorem walk_resolves (again : Location → List Text → Option Found) (location : Location) (pieces : List Text)
    (stands : location.Stands) (plain : location.top.isPlain = true) (found : Found)
    (there : walk again location pieces = some found) :
    found.StandsAt location.top ((Path.bodyComponents pieces).foldl Path.Component.enter location.names) := by
  induction pieces generalizing location with
  | nil =>
      cases there
      exact ⟨stands, rfl, rfl⟩
  | cons piece rest ih =>
      rw [walk] at there
      by_cases silent : piece = [] ∨ piece = ['.']
      · rw [if_pos silent] at there
        rw [Path.body_components_quiet piece rest ((Path.is_silent_iff piece).mpr silent)]
        exact ih location stands plain there
      · rw [if_neg silent] at there
        rw [Path.body_components_cons piece rest (by rwa [Path.is_silent_iff]), List.foldl_cons, Path.Component.ofPiece]
        by_cases above : piece = ['.', '.']
        · rw [if_pos above] at there ⊢
          have reached := ih location.up stands.up plain there
          rw [names_up] at reached
          exact reached
        · rw [if_neg above] at there ⊢
          cases entry : location.current.find? piece with
          | none =>
              rw [entry] at there
              cases there
          | some node =>
              cases node with
              | directory entries =>
                  rw [entry] at there
                  have reached := ih (location.down piece entries) (stands.down piece entries entry) plain there
                  rw [names_down] at reached
                  exact reached
              | file content =>
                  rw [entry] at there
                  dsimp only at there
                  split at there
                  · rename_i last
                    cases there
                    rw [List.isEmpty_iff.mp last]
                    have inside : location.current.fileAt? [piece] = some content := by
                      rw [Directory.fileAt?, Node.fileAt?, entry, Option.bind_some, Node.fileAt?]
                    exact (stands.file_at [piece] (List.cons_ne_nil _ _)).trans inside
                  · cases there
              | link target =>
                  -- Without links, no path is followed again.
                  have impossible := (location.current.find_plain (stands.plain plain) piece _ entry).2
                  simp [Node.isPlain] at impossible

theorem find_resolves (location : Location) (path : Text) (stands : location.Stands)
    (plain : location.top.isPlain = true) (found : Found) (there : location.find? path = some found) :
    found.StandsAt location.top (Path.resolveFrom location.names path) := by
  rw [Path.resolve_pieces]
  obtain ⟨again, walks⟩ : ∃ again, follow maxLinks = walk again := ⟨_, rfl⟩
  rw [find?, walks] at there
  split at there
  · cases there
  · by_cases absolute : Path.isAbsolute path = true
    · rw [if_pos absolute] at there ⊢
      exact walk_resolves again location.atTop _ Stands.atTop plain found there
    · rw [if_neg absolute] at there ⊢
      exact walk_resolves again location _ stands plain found there

end Location

namespace FileTree

def resolve (tree : FileTree) (path : Text) : List Text :=
  Path.resolveFrom (Path.resolveFrom [] tree.workingDirectory) path

theorem find_resolves (tree : FileTree) (plain : tree.top.isPlain = true) (path : Text) (found : Found)
    (there : tree.find? path = some found) : found.StandsAt tree.top (tree.resolve path) := by
  have top : (Location.mk tree.top []).Stands := trivial
  unfold find? at there
  by_cases absolute : Path.isAbsolute path = true
  · have reached := Location.find_resolves _ path top plain found (by simpa [absolute] using there)
    rw [Path.resolve_pieces, if_pos absolute] at reached
    rw [resolve, Path.resolve_pieces, if_pos absolute]
    exact reached
  · simp only [if_neg absolute] at there
    split at there
    · rename_i working begins
      obtain ⟨stands, same, names⟩ := Location.find_resolves _ _ top plain _ begins
      have reached := working.find_resolves path stands (same ▸ plain) found there
      rw [same, names] at reached
      exact reached
    · cases there

end FileTree

end BlockSearch
