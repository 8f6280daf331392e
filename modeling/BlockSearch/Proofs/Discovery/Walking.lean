import BlockSearch.Discovery.Entries
import BlockSearch.Proofs.FileTree.Names

set_option autoImplicit false

namespace BlockSearch

def Visit.fileOf (visit : Visit) (names : List Text) (content : Bytes) : WalkedFile :=
  ⟨names.foldl Path.join visit.path, visit.way ++ Text.joined ['/'] names, content.length⟩

theorem Directory.files_iff (setting : WalkSetting) (visit : Visit) (levels : Nat) (directory : Directory)
    (plain : directory.isPlain = true) (file : WalkedFile) :
    file ∈ directory.files setting visit levels ↔
      ∃ name node, directory.find? name = some node ∧ file ∈ node.files setting visit levels name := by
  cases directory with
  | empty => simp [Directory.files, Directory.find?]
  | entry other first rest =>
      obtain ⟨-, once, -, restPlain⟩ := (plain_entry other first rest).mp plain
      have inside := files_iff setting visit levels rest restPlain file
      rw [Directory.files, List.mem_append, inside]
      constructor
      · rintro (here | ⟨name, node, found, later⟩)
        · exact ⟨other, first, by simp [find?], here⟩
        · have different : other ≠ name := by
            rintro rfl
            simp [once] at found
          exact ⟨name, node, by simpa [find?, different] using found, later⟩
      · rintro ⟨name, node, found, member⟩
        by_cases same : other = name
        · simp only [find?, if_pos same, Option.some.injEq] at found
          exact .inl (by rwa [same, found])
        · exact .inr ⟨name, node, by simpa [find?, same] using found, member⟩

theorem Visit.file_of_enter (tree : FileTree) (visit : Visit) (name : Text) (names : List Text) (some : names ≠ [])
    (content : Bytes) : (visit.enter tree name).fileOf names content = visit.fileOf (name :: names) content := by
  simp only [fileOf, enter, List.foldl_cons, Text.joined, List.intercalate_cons_of_ne_nil some, List.append_assoc]

section Walk

variable (setting : WalkSetting) (unpruned : setting.pruned = [])

def Visit.Reaches (levels : Nat) : Prop :=
  ∀ (visit : Visit) (directory : Directory) (file : WalkedFile), visit.scope = none → directory.isPlain = true →
    (file ∈ visit.files setting directory levels ↔
      ∃ names content, directory.fileAt? names = some content ∧ names.length ≤ levels ∧
        file = visit.fileOf names content)

include unpruned

theorem Node.files_iff (levels : Nat) (reaches : Visit.Reaches setting levels) (visit : Visit)
    (free : visit.scope = none) (name : Text) (node : Node) (plain : node.isPlain = true) (file : WalkedFile) :
    file ∈ node.files setting visit levels name ↔
      ∃ rest content, node.fileAt? rest = some content ∧ rest.length ≤ levels ∧
        file = visit.fileOf (name :: rest) content := by
  cases node with
  | file bytes =>
      have single : (Node.file bytes).files setting visit levels name = [visit.fileOf [name] bytes] := by
        simp [Node.files, Visit.leavesOut, free, Visit.fileOf, Text.joined]
      rw [single, List.mem_singleton]
      constructor
      · rintro rfl
        exact ⟨[], bytes, rfl, Nat.zero_le _, rfl⟩
      · rintro ⟨rest, content, found, -, rfl⟩
        cases rest with
        | nil =>
            simp only [Node.fileAt?, Option.some.injEq] at found
            rw [found]
        | cons next others => simp [Node.fileAt?] at found
  | directory entries =>
      have walked : (Node.directory entries).files setting visit levels name =
          (visit.enter setting.tree name).files setting entries levels := by
        cases levels with
        | zero => rfl
        | succ levels =>
            rw [Node.files, if_neg]
            · rfl
            · simp [Visit.leavesOut, free, WalkSetting.prunes, unpruned, Glob.anyMatch]
      rw [walked, reaches _ entries file (by simp [Visit.enter, free]) plain]
      have same (names : List Text) (content : Bytes) (found : entries.fileAt? names = some content) :
          (visit.enter setting.tree name).fileOf names content = visit.fileOf (name :: names) content := by
        obtain ⟨first, rest, _, rfl, -⟩ := entries.file_at_some names content found
        exact visit.file_of_enter setting.tree name _ (List.cons_ne_nil _ _) content
      constructor
      · rintro ⟨names, content, found, short, rfl⟩
        exact ⟨names, content, found, short, same names content found⟩
      · rintro ⟨names, content, found, short, rfl⟩
        exact ⟨names, content, found, short, (same names content found).symm⟩
  | link target => simp [Node.isPlain] at plain

theorem Visit.reaches (levels : Nat) : Visit.Reaches setting levels := by
  induction levels with
  | zero =>
      intro visit directory file _ _
      simp only [Visit.files, List.not_mem_nil, Nat.le_zero, List.length_eq_zero_iff, false_iff]
      rintro ⟨names, content, found, rfl, -⟩
      simp [Directory.fileAt?, Node.fileAt?] at found
  | succ levels ih =>
      intro visit directory file free plain
      rw [Visit.files, Directory.files_iff setting visit levels directory plain]
      constructor
      · rintro ⟨name, node, found, member⟩
        obtain ⟨rest, content, inside, short, same⟩ := (Node.files_iff setting unpruned levels ih visit free name node
          (directory.find_plain plain name node found).2 file).mp member
        refine ⟨name :: rest, content, ?_, Nat.succ_le_succ short, same⟩
        rw [Directory.fileAt?, Node.fileAt?, found, Option.bind_some, inside]
      · rintro ⟨names, content, found, short, same⟩
        obtain ⟨name, rest, node, rfl, there, inside⟩ := directory.file_at_some names content found
        refine ⟨name, node, there, ?_⟩
        exact (Node.files_iff setting unpruned levels ih visit free name node
          (directory.find_plain plain name node there).2 file).mpr
          ⟨rest, content, inside, Nat.le_of_succ_le_succ short, same⟩

end Walk

theorem Visit.files_found (setting : WalkSetting) (levels : Nat) (visit : Visit) (directory : Directory)
    (plain : directory.isPlain = true) (file : WalkedFile) (member : file ∈ visit.files setting directory levels) :
    ∃ names content, directory.fileAt? names = some content ∧ file.path = names.foldl Path.join visit.path ∧
      file.size = content.length := by
  induction levels generalizing visit directory with
  | zero => exact absurd member List.not_mem_nil
  | succ levels ih =>
      obtain ⟨name, node, found, inside⟩ := (directory.files_iff setting visit levels plain file).mp member
      have further (rest : List Text) : directory.fileAt? (name :: rest) = node.fileAt? rest := by
        rw [Directory.fileAt?, Node.fileAt?, found, Option.bind_some]
      cases node with
      | file content =>
          rw [Node.files] at inside
          split at inside
          · exact absurd inside List.not_mem_nil
          · rw [List.mem_singleton.mp inside]
            exact ⟨[name], content, further [], rfl, rfl⟩
      | directory entries =>
          have walked : file ∈ (visit.enter setting.tree name).files setting entries levels := by
            cases levels with
            | zero => exact inside
            | succ levels =>
                rw [Node.files] at inside
                split at inside
                · exact absurd inside List.not_mem_nil
                · exact inside
          have plainInside : entries.isPlain = true := (directory.find_plain plain name _ found).2
          obtain ⟨names, content, there, path, size⟩ := ih _ entries plainInside walked
          exact ⟨name :: names, content, (further names).trans there, path, size⟩
      | link target => exact absurd inside List.not_mem_nil

def WalkedFile.candidate (file : WalkedFile) : Candidate := ⟨file.path, file.size, false⟩

-- A walk finds nothing, or some faults, and then the files that it wants on one visit of its base. What is pruned has no
-- part in which of the two it is.
theorem WalkTarget.candidates_cases (tree : FileTree) (root : Text) (limits : WalkLimits) (target : WalkTarget) :
    (∀ pruned, target.candidates tree root pruned limits = []) ∨
      ∃ (location : Location) (faults : List WalkFault) (visit : Visit),
        tree.directory? target.base = some location ∧ target.base ≠ [] ∧ visit.path = target.base ∧
        ∀ pruned, target.candidates tree root pruned limits = faults.map .error ++
          ((visit.files ⟨tree, root, pruned⟩ location.current (target.levels limits)).filter target.wants).map
            fun file => .ok file.candidate := by
  unfold candidates
  cases there : tree.directory? target.base with
  | none => exact .inl fun pruned => rfl
  | some location =>
      cases input : isStandardInput target.base with
      | true => exact .inl fun pruned => rfl
      | false =>
          have some := (tree.find_starts _ _ ((tree.directory_iff _ _).mp there)).1
          exact .inr ⟨location, _, _, rfl, some, rfl, fun pruned => rfl⟩

theorem WalkTarget.candidate_cases (tree : FileTree) (root : Text) (limits : WalkLimits) (target : WalkTarget) :
    (∀ pruned candidate, .ok candidate ∉ target.candidates tree root pruned limits) ∨
      ∃ (location : Location) (visit : Visit),
        tree.directory? target.base = some location ∧ target.base ≠ [] ∧ visit.path = target.base ∧
        ∀ pruned candidate, .ok candidate ∈ target.candidates tree root pruned limits ↔
          ∃ file ∈ visit.files ⟨tree, root, pruned⟩ location.current (target.levels limits),
            target.wants file = true ∧ file.candidate = candidate := by
  rcases target.candidates_cases tree root limits with none | ⟨location, faults, visit, there, some, here, shape⟩
  · refine .inl fun pruned candidate => ?_
    rw [none]
    exact List.not_mem_nil
  · refine .inr ⟨location, visit, there, some, here, fun pruned candidate => ?_⟩
    simp [shape, and_assoc]

theorem WalkTarget.candidates_iff (tree : FileTree) (root : Text) (limits : WalkLimits) (target : WalkTarget)
    (reached : Location) (there : tree.directory? target.base = some reached)
    (walked : isStandardInput target.base = false) (plain : reached.current.isPlain = true)
    (unruled : limits.respectIgnoreFiles = false) :
    ∃ found : List Candidate, target.candidates tree root [] limits = found.map .ok ∧
      ∀ candidate, candidate ∈ found ↔
        ∃ names content, reached.current.fileAt? names = some content ∧ names.length ≤ target.levels limits ∧
          target.glob.isMatch (target.lead ++ Path.slashed (Text.joined ['/'] names)) = true ∧
          candidate = ⟨names.foldl Path.join target.base, content.length, false⟩ := by
  have reaches := Visit.reaches ⟨tree, root, []⟩ rfl (target.levels limits) (.start tree target.base none)
    reached.current
  refine ⟨(((Visit.start tree target.base none).files ⟨tree, root, []⟩ reached.current
    (target.levels limits)).filter target.wants).map fun file => ⟨file.path, file.size, false⟩, ?_, ?_⟩
  · have base : (tree.directory? target.base).filter (fun _ => !isStandardInput target.base) = some reached := by
      simp [there, walked, Option.filter]
    simp [candidates, base, unruled]
  · intro candidate
    simp only [List.mem_map, List.mem_filter]
    constructor
    · rintro ⟨file, ⟨member, wanted⟩, rfl⟩
      obtain ⟨names, content, found, short, rfl⟩ := (reaches file rfl plain).mp member
      exact ⟨names, content, found, short, wanted, rfl⟩
    · rintro ⟨names, content, found, short, wanted, rfl⟩
      exact ⟨_, ⟨(reaches _ rfl plain).mpr ⟨names, content, found, short, rfl⟩, wanted⟩, rfl⟩

end BlockSearch
