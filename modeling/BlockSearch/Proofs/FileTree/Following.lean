import BlockSearch.FileTree.Location
import BlockSearch.Proofs.FilePattern.Completion

set_option autoImplicit false

namespace BlockSearch

namespace Location

theorem walk_silent (again : Location → List Text → Option Found) (piece : Text) (behind : List Text)
    (silent : piece = [] ∨ piece = ['.']) (some : behind ≠ [])
    (skips : ∀ location front, again location (front ++ piece :: behind) = again location (front ++ behind))
    (location : Location) (front : List Text) :
    walk again location (front ++ piece :: behind) = walk again location (front ++ behind) := by
  induction front generalizing location with
  | nil => simp only [List.nil_append, walk, if_pos silent]
  | cons first front ih =>
      have emptyA : (front ++ piece :: behind).isEmpty = false := by simp
      have emptyB : (front ++ behind).isEmpty = false := by simp [some]
      simp only [List.cons_append, walk, ih, emptyA, emptyB, ← List.append_assoc, skips]

theorem follow_silent (links : Nat) (location : Location) (front : List Text) (piece : Text) (behind : List Text)
    (silent : piece = [] ∨ piece = ['.']) (some : behind ≠ []) :
    follow links location (front ++ piece :: behind) = follow links location (front ++ behind) := by
  induction links generalizing location front with
  | zero => exact walk_silent _ piece behind silent some (fun _ _ => rfl) location front
  | succ links ih => exact walk_silent _ piece behind silent some ih location front

theorem walk_append (again : Location → List Text → Option Found) (links : Nat) (whole : follow links = walk again)
    (goesOn : ∀ location front reached, again location front = some (.directory reached) →
      ∃ left, ∀ behind, again location (front ++ behind) = follow left reached behind)
    (location reached : Location) (front : List Text)
    (found : walk again location front = some (.directory reached)) :
    ∃ left, ∀ behind, walk again location (front ++ behind) = follow left reached behind := by
  induction front generalizing location with
  | nil =>
      simp only [walk, Option.some.injEq, Found.directory.injEq] at found
      exact ⟨links, fun behind => by rw [found, whole, List.nil_append]⟩
  | cons piece front ih =>
      simp only [walk, List.cons_append] at found ⊢
      split at found
      · rename_i silent
        simpa only [if_pos silent] using ih location found
      · rename_i speaks
        split at found
        · rename_i parent
          simpa only [if_neg speaks, if_pos parent] using ih location.up found
        · rename_i named
          simp only [if_neg speaks, if_neg named]
          split at found
          · simp at found
          · exact ih _ found
          · split at found <;> simp at found
          · obtain ⟨left, after⟩ := goesOn _ _ _ found
            exact ⟨left, fun behind => by rw [← after, List.append_assoc]⟩

theorem follow_append (links : Nat) (location reached : Location) (front : List Text)
    (found : follow links location front = some (.directory reached)) :
    ∃ left, ∀ behind, follow links location (front ++ behind) = follow left reached behind := by
  induction links generalizing location reached front with
  | zero =>
      apply walk_append _ 0 rfl _ location reached front found
      intro _ _ _ impossible
      simp at impossible
  | succ links ih =>
      apply walk_append _ (links + 1) rfl _ location reached front found
      exact fun location front reached found => ih location reached front found

end Location

namespace Path

theorem is_absolute_iff (path : Text) : isAbsolute path = true ↔ path.head? = some '/' := by
  cases path with
  | nil => simp [isAbsolute, Text.startsWith, Text.afterLead]
  | cons c rest =>
      by_cases slash : c = '/'
      · simp [isAbsolute, Text.startsWith, Text.afterLead, slash]
      · simp [isAbsolute, Text.startsWith, Text.afterLead, slash, Ne.symm slash]

theorem is_absolute_append (path more : Text) (some : path ≠ []) : isAbsolute (path ++ more) = isAbsolute path := by
  rw [Bool.eq_iff_iff, is_absolute_iff, is_absolute_iff, List.head?_append_of_ne_nil _ some]

theorem undotted_cases (path : Text) : path = '.' :: '/' :: undotted path ∨ path = undotted path := by
  unfold undotted
  cases lead : Text.afterLead ['.', '/'] path with
  | none => exact .inr rfl
  | some rest => exact .inl (Text.after_lead_eq _ _ _ lead)

def withSlash (directory : Text) : Text :=
  if directory.isEmpty then []
  else if Text.endsWith ['/'] directory then directory
  else directory ++ ['/']

theorem join_relative (directory path : Text) (relative : isAbsolute path = false) :
    join directory path = withSlash directory ++ path := by
  unfold join withSlash
  simp only [relative, Bool.false_or]
  split
  · rfl
  · split <;> simp

theorem with_slash_cases (directory : Text) (some : directory ≠ []) :
    ∃ front, withSlash directory = front ++ ['/'] ∧ (directory = front ∨ directory = front ++ ['/']) := by
  unfold withSlash
  rw [if_neg (by simpa using some)]
  split
  · rename_i slash
    obtain ⟨front, same⟩ := List.getLast?_eq_some_iff.mp ((Text.ends_with_iff '/' directory).mp slash)
    exact ⟨front, same, .inr same⟩
  · exact ⟨directory, rfl, .inl rfl⟩

-- The pieces of a path below a directory: those of the directory, without the empty one behind a slash at its end, come
-- before those of the path.
theorem pieces_join (directory : Text) :
    ∃ front, (∀ path, isAbsolute path = false →
        Text.pieces '/' (join directory path) = front ++ Text.pieces '/' path) ∧
      (directory ≠ [] → Text.pieces '/' directory = front ∨ Text.pieces '/' directory = front ++ [[]]) := by
  by_cases none : directory = []
  · refine ⟨[], ?_, fun some => absurd none some⟩
    intro path relative
    rw [join_relative _ _ relative, none]
    rfl
  · obtain ⟨front, slash, whole⟩ := with_slash_cases directory none
    refine ⟨Text.pieces '/' front, ?_, fun _ => ?_⟩
    · intro path relative
      rw [join_relative _ _ relative, slash, List.append_assoc, List.singleton_append, Text.pieces_append]
    · rcases whole with same | same
      · exact .inl (by rw [same])
      · exact .inr (by rw [same, Text.pieces_append_last])

theorem is_absolute_join (directory path : Text) (relative : isAbsolute path = false) :
    isAbsolute (join directory path) = isAbsolute directory := by
  rw [join_relative _ _ relative]
  by_cases none : directory = []
  · rw [none]
    exact relative
  · obtain ⟨front, slash, whole⟩ := with_slash_cases directory none
    rcases whole with same | same
    · rw [slash, ← same, List.append_assoc, is_absolute_append _ _ none]
    · rw [slash, ← same, is_absolute_append _ _ none]

theorem join_ne_nil (directory path : Text) (some : path ≠ []) : join directory path ≠ [] := by
  by_cases absolute : isAbsolute path = true
  · simpa [join, absolute] using some
  · rw [join_relative _ _ (by simpa using absolute)]
    simp [some]

end Path

namespace FileTree

theorem location_find_some (location : Location) (path : Text) (found : Found)
    (there : location.find? path = some found) : path ≠ [] ∧ Text.size path ≤ Location.maxPathSize := by
  unfold Location.find? at there
  split at there
  · simp at there
  · rename_i valid
    simpa using valid

theorem location_find_eq (location : Location) (path : Text) (some : path ≠ [])
    (short : Text.size path ≤ Location.maxPathSize) :
    location.find? path = Location.follow Location.maxLinks
      (if Path.isAbsolute path then location.atTop else location) (Text.pieces '/' path) := by
  unfold Location.find?
  rw [if_neg (by simpa using ⟨some, short⟩)]

theorem find_starts (tree : FileTree) (path : Text) (found : Found) (there : tree.find? path = some found) :
    path ≠ [] ∧ Text.size path ≤ Location.maxPathSize ∧ ∃ start,
      ∀ other, Path.isAbsolute other = Path.isAbsolute path → other ≠ [] → Text.size other ≤ Location.maxPathSize →
        tree.find? other = Location.follow Location.maxLinks start (Text.pieces '/' other) := by
  by_cases absolute : Path.isAbsolute path = true
  · simp only [find?, if_pos absolute] at there
    obtain ⟨nonempty, short⟩ := location_find_some _ path found there
    refine ⟨nonempty, short, ⟨tree.top, []⟩, ?_⟩
    intro other same nonempty short
    rw [find?, if_pos (same.trans absolute), location_find_eq _ other nonempty short, if_pos (same.trans absolute)]
    rfl
  · simp only [find?, if_neg absolute] at there
    split at there
    · rename_i working reached
      obtain ⟨nonempty, short⟩ := location_find_some _ path found there
      refine ⟨nonempty, short, working, ?_⟩
      intro other same nonempty short
      have relative : ¬ Path.isAbsolute other = true := same ▸ absolute
      simp only [find?, if_neg relative, reached, location_find_eq _ other nonempty short]
    · simp at there

theorem directory_iff (tree : FileTree) (path : Text) (location : Location) :
    tree.directory? path = some location ↔ tree.find? path = some (.directory location) := by
  unfold directory?
  split
  · rename_i other found
    simp [found]
  · rename_i none
    exact iff_of_false (fun impossible => by simp at impossible) (none location)

theorem file_iff (tree : FileTree) (path : Text) (content : Bytes) :
    tree.file? path = some content ↔ tree.find? path = some (.file content) := by
  unfold file?
  split
  · rename_i other found
    simp [found]
  · rename_i none
    exact iff_of_false (fun impossible => by simp at impossible) (none content)

theorem find_join (tree : FileTree) (directory path : Text) (reached : Location)
    (there : tree.directory? directory = some reached) (relative : Path.isAbsolute path = false)
    (short : Text.size (Path.join directory path) ≤ Location.maxPathSize) :
    ∃ left, tree.find? (Path.join directory path) = Location.follow left reached (Text.pieces '/' path) := by
  have found := (directory_iff tree directory reached).mp there
  obtain ⟨nonempty, fits, start, begins⟩ := find_starts tree directory _ found
  obtain ⟨front, below, whole⟩ := Path.pieces_join directory
  have joinedSome : Path.join directory path ≠ [] := by
    obtain ⟨front, slash, -⟩ := Path.with_slash_cases directory nonempty
    simp [Path.join_relative _ _ relative, slash]
  rw [begins directory rfl nonempty fits] at found
  obtain ⟨left, goesOn⟩ := Location.follow_append _ _ _ _ found
  refine ⟨left, ?_⟩
  rw [begins _ (Path.is_absolute_join directory path relative) joinedSome short, below path relative, ← goesOn]
  rcases whole nonempty with same | silent
  · rw [same]
  · rw [silent, List.append_assoc, List.singleton_append,
      Location.follow_silent _ _ _ _ _ (.inl rfl) (Text.pieces_ne_nil '/' path)]

-- A point in front of a path makes no difference, unless it is what keeps the path from being absolute.
theorem find_undotted (tree : FileTree) (directory path : Text) (found : Found)
    (apart : Text.startsWith ".//".toList path = false) (nonempty : Path.undotted path ≠ [])
    (there : tree.find? (Path.join directory path) = some found) :
    tree.find? (Path.join directory (Path.undotted path)) = some found := by
  unfold Path.undotted at nonempty ⊢
  cases lead : Text.afterLead ['.', '/'] path with
  | none => exact there
  | some rest =>
      simp only [lead, Option.getD_some] at nonempty ⊢
      have whole := Text.after_lead_eq _ _ _ lead
      have relative : Path.isAbsolute rest = false := by
        rw [← Bool.not_eq_true, Path.is_absolute_iff]
        intro slash
        obtain ⟨more, same⟩ := List.head?_eq_some_iff.mp slash
        have dotted : Text.startsWith ".//".toList path = true := by
          rw [whole, same]
          exact congrArg Option.isSome (Text.after_lead_append ".//".toList more)
        rw [apart] at dotted
        exact Bool.false_ne_true dotted
      have dottedRelative : Path.isAbsolute path = false := by rw [whole]; rfl
      have same := (Path.is_absolute_join directory rest relative).trans
        (Path.is_absolute_join directory path dottedRelative).symm
      obtain ⟨some, fits, start, begins⟩ := find_starts tree _ found there
      have shorter : Text.size (Path.join directory rest) ≤ Text.size (Path.join directory path) := by
        rw [Path.join_relative _ _ relative, Path.join_relative _ _ dottedRelative, whole]
        simp only [Text.size_append]
        omega
      obtain ⟨front, below, -⟩ := Path.pieces_join directory
      have cut : Text.pieces '/' path = ['.'] :: Text.pieces '/' rest := by
        rw [whole]
        exact Text.pieces_append '/' ['.'] rest
      rw [begins _ rfl some fits, below path dottedRelative, cut,
        Location.follow_silent _ _ _ _ _ (.inr rfl) (Text.pieces_ne_nil '/' rest)] at there
      rw [begins _ same (Path.join_ne_nil directory rest nonempty) (Nat.le_trans shorter fits), below rest relative]
      exact there

end FileTree

end BlockSearch
