import BlockSearch.Proofs.Discovery.Admission
import BlockSearch.Proofs.Discovery.Planning
import BlockSearch.Proofs.Discovery.Walking
import BlockSearch.Proofs.Glob.Depth

set_option autoImplicit false

namespace BlockSearch

namespace Plan

section Base

variable (root pattern : Text) (segments : ∀ segment ∈ Text.pieces '/' pattern, IsName segment)
include segments

theorem literal_names : ∀ name ∈ literalSegments pattern, IsName name :=
  fun name member => segments name ((List.takeWhile_sublist _).subset member)

theorem lead_relative : Path.isAbsolute (leadOf pattern) = false := by
  rw [lead_of_eq]
  cases cut : literalSegments pattern with
  | nil => rfl
  | cons name rest =>
      have isName := literal_names pattern segments name (cut ▸ List.mem_cons_self)
      rw [Text.terminated, List.flatMap_cons, List.append_assoc]
      exact Path.relative_of_name name _ isName

theorem with_slash_base :
    Path.withSlash (baseOf root pattern) = Path.withSlash root ++ leadOf pattern := by
  rcases lead_cases pattern with ⟨-, none⟩ | ⟨front, some⟩
  · simp [baseOf, none]
  · have base : baseOf root pattern = Path.withSlash root ++ leadOf pattern := by
      rw [baseOf, if_neg (by simp [some]), Path.join_relative _ _ (lead_relative pattern segments)]
    have last : Text.endsWith ['/'] (baseOf root pattern) = true := by
      rw [Text.ends_with_iff, base, some]
      simp
    rw [Path.withSlash, if_pos last, if_neg (by simp [base, some]), base]

theorem base_reached (tree : FileTree) (start : Location) (there : tree.directory? root = some start)
    (plain : start.current.isPlain = true) (fits : Text.size (baseOf root pattern) ≤ Location.maxPathSize) :
    (∃ reached, tree.directory? (baseOf root pattern) = some reached ∧ reached.current.isPlain = true ∧
        ∀ rest, rest ≠ [] →
          start.current.fileAt? (literalSegments pattern ++ rest) = reached.current.fileAt? rest) ∨
      tree.directory? (baseOf root pattern) = none ∧
        ∀ rest, rest ≠ [] → start.current.fileAt? (literalSegments pattern ++ rest) = none := by
  rcases lead_cases pattern with ⟨none, here⟩ | ⟨front, some⟩
  · rw [baseOf, here, none]
    exact .inl ⟨start, there, plain, fun rest _ => rfl⟩
  · have valid := literal_names pattern segments
    rw [baseOf, if_neg (by simp [some])] at fits ⊢
    obtain ⟨left, leads⟩ := tree.find_join root (leadOf pattern) start there (lead_relative pattern segments) fits
    rw [lead_of_eq, Text.pieces_terminated '/' _ (fun name member => (valid name member).2.2.2)] at leads
    rw [FileTree.directory?, lead_of_eq, leads]
    rcases Location.follow_names left start plain _ valid with ⟨reached, found, inside, same⟩ | ⟨none, same⟩
    · exact .inl ⟨reached, by rw [found], inside, same⟩
    · exact .inr ⟨by rw [none], same⟩

theorem walked_path (names : List Text) (way : IsWay names) :
    names.foldl Path.join (baseOf root pattern) =
      Path.withSlash root ++ Text.joined ['/'] (literalSegments pattern ++ names) := by
  rw [Path.join_names _ names way, with_slash_base root pattern segments, lead_of_eq,
    Text.joined_append '/' _ names way.nonempty, List.append_assoc]

theorem make_glob (tree : FileTree) (glob : Glob) (special : FilePattern.hasGlobChars pattern = true)
    (readable : readGlob pattern = .ok glob) :
    make tree root [pattern] [] =
      .ok ⟨root, ((tree.directory? (baseOf root pattern)).map fun _ =>
        Target.walk ⟨baseOf root pattern, leadOf pattern, depthOf pattern, glob⟩).toList, [], []⟩ := by
  have undotted := Path.undotted_plain pattern fun here => (segments _ here).2.1 rfl
  simp only [make, gather, target, undotted, if_pos special, walkTarget, readable]
  cases tree.directory? (baseOf root pattern) <;> rfl

end Base

theorem slashed_count (text : Text) : text.count '/' ≤ (Path.slashed text).count '/' := by
  induction text with
  | nil => exact Nat.le_refl 0
  | cons c rest ih =>
      by_cases backslash : c = '\x5c'
      · simp only [Path.slashed, List.map_cons, backslash, List.count_cons] at ih ⊢
        simp
        omega
      · simp only [Path.slashed, List.map_cons, if_neg backslash, List.count_cons] at ih ⊢
        omega

theorem read_glob_slashes (pattern : Text) (glob : Glob) (readable : readGlob pattern = .ok glob) :
    Glob.allSlashes glob.pieces ≤ pattern.count '/' := by
  unfold readGlob at readable
  split at readable
  · rename_i read
    cases readable
    exact Glob.read_slashes dialect pattern glob rfl read
  · cases readable

theorem depth_of_flat (pattern : Text) (glob : Glob) (readable : readGlob pattern = .ok glob)
    (segments : ∀ segment ∈ Text.pieces '/' pattern, IsName segment) (flat : glob.isFlat = true) (rest : List Text)
    (way : IsWay rest)
    (found : glob.isMatch (leadOf pattern ++ Path.slashed (Text.joined ['/'] rest)) = true) :
    ∀ depth ∈ depthOf pattern, rest.length ≤ depth := by
  intro depth bounded
  have written := read_glob_slashes pattern glob readable
  have matched := Glob.is_match_slashes glob _ flat found
  have front : (leadOf pattern).count '/' = (literalSegments pattern).length :=
    Text.count_terminated '/' _ fun name member => (literal_names pattern segments name member).2.2.2
  have back := slashed_count (Text.joined ['/'] rest)
  have names := Text.pieces_length '/' (Text.joined ['/'] rest)
  rw [Path.pieces_names rest way] at names
  have pieces := Text.pieces_length '/' pattern
  rw [List.count_append, front] at matched
  have last : depth = (Text.pieces '/' pattern).length - (literalSegments pattern).length := by
    unfold depthOf at bounded
    dsimp only at bounded
    split at bounded
    · cases bounded
    · exact (Option.some.inj bounded).symm
  omega

end Plan

theorem WalkTarget.le_levels_iff (target : WalkTarget) (limits : WalkLimits) (length : Nat) :
    length ≤ target.levels limits ↔ length ≤ limits.maxDepth ∧ ∀ depth ∈ target.depth, length ≤ depth := by
  unfold levels
  cases target.depth with
  | none => simp
  | some depth =>
      simp only [Option.mem_some_iff, forall_eq']
      omega

-- What a glob asks for, by the names below the directory that its first segments name. The bound of its segments
-- counts only where the glob could match a deeper path.
structure Plan.Wants (pattern : Text) (glob : Glob) (maxDepth : Nat) (rest : List Text) : Prop where
  below : rest ≠ []
  near : rest.length ≤ maxDepth
  bounded : glob.isFlat = true ∨ ∀ depth ∈ depthOf pattern, rest.length ≤ depth
  path : glob.isMatch (leadOf pattern ++ Path.slashed (Text.joined ['/'] rest)) = true

structure FileEntry.IsAt (root : Text) (names : List Text) (content : Bytes) (entry : FileEntry) : Prop where
  path : entry.path = Text.joined ['/'] names
  size : entry.size = content.length
  key : Path.components entry.location = Path.components root ++ names.map Path.Component.name

theorem Plan.entry_is_at (plan : Plan) (rooted : plan.root ≠ []) (names : List Text) (way : IsWay names)
    (content : Bytes) (order : Nat) :
    (Admission.entryOf plan ⟨Path.withSlash plan.root ++ Text.joined ['/'] names, content.length, false⟩ order).IsAt
      plan.root names content where
  path := Path.shown_names plan.root rooted names way
  size := rfl
  key := Path.components_names plan.root rooted names way

theorem FileEntry.IsAt.names_eq {root : Text} {a b : List Text} {content other : Bytes} {first second : FileEntry}
    (one : first.IsAt root a content) (two : second.IsAt root b other)
    (same : Path.components first.location = Path.components second.location) : a = b := by
  rw [one.key, two.key, List.append_cancel_left_eq] at same
  exact List.map_injective_iff.mpr (fun _ _ equal => Path.Component.name.inj equal) same

theorem FileEntry.IsAt.path_ne {root : Text} {a b : List Text} {content other : Bytes} {first second : FileEntry}
    (one : first.IsAt root a content) (two : second.IsAt root b other) (wayA : IsWay a) (wayB : IsWay b)
    (apart : Path.components first.location ≠ Path.components second.location) : first.path ≠ second.path := by
  intro same
  rw [one.path, two.path] at same
  have names := congrArg (Text.pieces '/') same
  rw [Path.pieces_names a wayA, Path.pieces_names b wayB] at names
  exact apart (by rw [one.key, two.key, names])

section Glob

variable (tree : FileTree) (root pattern : Text) (glob : Glob) (start : Location) (limits : WalkLimits)
  (there : tree.directory? root = some start) (plain : start.current.isPlain = true)
  (special : FilePattern.hasGlobChars pattern = true)
  (segments : ∀ segment ∈ Text.pieces '/' pattern, IsName segment)
  (readable : Plan.readGlob pattern = .ok glob) (unruled : limits.respectIgnoreFiles = false)
  (fits : Text.size (Plan.baseOf root pattern) ≤ Location.maxPathSize)
  (walked : WalkTarget.isStandardInput (Plan.baseOf root pattern) = false)
include there plain special segments readable unruled fits walked

theorem Plan.glob_candidates :
    ∃ plan, ∃ candidates : List Candidate, make tree root [pattern] [] = .ok plan ∧ plan.root = root ∧
      plan.excluded = [] ∧ plan.candidates tree limits = candidates.map .ok ∧
      ∀ candidate, candidate ∈ candidates ↔
        ∃ rest content, start.current.fileAt? (literalSegments pattern ++ rest) = some content ∧
          Wants pattern glob limits.maxDepth rest ∧
          candidate = ⟨Path.withSlash root ++ Text.joined ['/'] (literalSegments pattern ++ rest), content.length,
            false⟩ := by
  have made := make_glob root pattern segments tree glob special readable
  rcases base_reached root pattern segments tree start there plain fits with
    ⟨reached, base, inside, same⟩ | ⟨none, same⟩
  · obtain ⟨found, enumerated, members⟩ := WalkTarget.candidates_iff tree root limits
      ⟨baseOf root pattern, leadOf pattern, depthOf pattern, glob⟩ reached base walked inside unruled
    rw [base] at made
    refine ⟨_, found, made, rfl, rfl, ?_, ?_⟩
    · simpa [candidates, Target.candidates] using enumerated
    · intro candidate
      rw [members]
      constructor
      · rintro ⟨rest, content, there, short, wanted, rfl⟩
        obtain ⟨near, bounded⟩ := (WalkTarget.le_levels_iff _ limits _).mp short
        have way := reached.current.file_at_way inside rest content there
        exact ⟨rest, content, by rw [same rest way.nonempty, there], ⟨way.nonempty, near, .inr bounded, wanted⟩,
          by rw [walked_path root pattern segments rest way]⟩
      · rintro ⟨rest, content, there, wants, rfl⟩
        rw [same rest wants.below] at there
        have way := reached.current.file_at_way inside rest content there
        have bounded := wants.bounded.elim
          (fun flat => depth_of_flat pattern glob readable segments flat rest way wants.path) id
        exact ⟨rest, content, there, (WalkTarget.le_levels_iff _ limits _).mpr ⟨wants.near, bounded⟩, wants.path,
          by rw [walked_path root pattern segments rest way]⟩
  · rw [none] at made
    refine ⟨_, [], made, rfl, rfl, rfl, ?_⟩
    intro candidate
    simp only [List.not_mem_nil, false_iff]
    rintro ⟨rest, content, found, wants, -⟩
    rw [same rest wants.below] at found
    cases found

theorem Plan.glob_entries :
    ∃ plan, ∃ found : List FileEntry, make tree root [pattern] [] = .ok plan ∧
      plan.discover tree limits = found.map .ok ∧
      (found.Pairwise fun a b => Path.components a.location ≠ Path.components b.location) ∧
      (∀ entry ∈ found, ∃ rest content, start.current.fileAt? (literalSegments pattern ++ rest) = some content ∧
        content.length ≤ limits.maxFileSize ∧ Wants pattern glob limits.maxDepth rest ∧
        entry.IsAt root (literalSegments pattern ++ rest) content) ∧
      ∀ rest content, start.current.fileAt? (literalSegments pattern ++ rest) = some content →
        content.length ≤ limits.maxFileSize → Wants pattern glob limits.maxDepth rest →
        ∃ entry ∈ found, entry.IsAt root (literalSegments pattern ++ rest) content := by
  obtain ⟨plan, candidates, made, rfl, excluded, enumerated, members⟩ := glob_candidates tree root pattern glob start
    limits there plain special segments readable unruled fits walked
  obtain ⟨found, entries, admitted⟩ := Admission.start_entries plan limits.maxFileSize candidates
  have rooted : plan.root ≠ [] := (tree.find_starts _ _ ((tree.directory_iff _ _).mp there)).1
  have place (rest : List Text) (content : Bytes) (order : Nat)
      (file : start.current.fileAt? (literalSegments pattern ++ rest) = some content) :=
    plan.entry_is_at rooted _ (start.current.file_at_way plain _ content file) content order
  have source (entry : FileEntry) (member : entry ∈ found) :
      ∃ rest content, start.current.fileAt? (literalSegments pattern ++ rest) = some content ∧
        content.length ≤ limits.maxFileSize ∧ Wants pattern glob limits.maxDepth rest ∧
        entry.IsAt plan.root (literalSegments pattern ++ rest) content := by
    obtain ⟨candidate, present, passes, order, rfl⟩ := admitted.source entry member
    obtain ⟨rest, content, file, wants, rfl⟩ := (members candidate).mp present
    exact ⟨rest, content, file, passes.2, wants, place rest content order file⟩
  refine ⟨plan, found, made, by rw [discover, enumerated, entries], admitted.apart, source, ?_⟩
  intro rest content file small wants
  obtain ⟨entry, member, same⟩ := admitted.complete _ ((members _).mpr ⟨rest, content, file, wants, rfl⟩)
    ⟨by simp [Admission.isExcluded, excluded, Glob.anyMatch], small⟩
  obtain ⟨other, bytes, otherFile, -, -, here⟩ := source entry member
  -- The entry under the same components is that of the same file.
  have names := here.names_eq (place rest content 0 file) same
  rw [names, file, Option.some.injEq] at otherFile
  rw [names, ← otherFile] at here
  exact ⟨entry, member, here⟩

end Glob

theorem discover_glob (tree : FileTree) (root pattern : Text) (glob : Glob) (start : Location) (limits : WalkLimits)
    (there : tree.directory? root = some start) (plain : start.current.isPlain = true)
    (special : FilePattern.hasGlobChars pattern = true)
    (segments : ∀ segment ∈ Text.pieces '/' pattern, IsName segment)
    (readable : Plan.readGlob pattern = .ok glob) (unruled : limits.respectIgnoreFiles = false)
    (fits : Text.size (Plan.baseOf root pattern) ≤ Location.maxPathSize)
    (walked : WalkTarget.isStandardInput (Plan.baseOf root pattern) = false) :
    ∃ plan, ∃ found : List FileEntry, Plan.make tree root [pattern] [] = .ok plan ∧
      plan.discover tree limits = found.map .ok ∧ (found.map FileEntry.path).Nodup ∧
      ∀ path size, (∃ entry ∈ found, entry.path = path ∧ entry.size = size) ↔
        ∃ rest content, start.current.fileAt? (Plan.literalSegments pattern ++ rest) = some content ∧
          path = Text.joined ['/'] (Plan.literalSegments pattern ++ rest) ∧ size = content.length ∧
          size ≤ limits.maxFileSize ∧ Plan.Wants pattern glob limits.maxDepth rest := by
  obtain ⟨plan, found, made, enumerated, apart, source, complete⟩ := Plan.glob_entries tree root pattern glob start
    limits there plain special segments readable unruled fits walked
  refine ⟨plan, found, made, enumerated, ?_, ?_⟩
  · rw [List.Nodup, List.pairwise_map]
    refine apart.imp_of_mem ?_
    intro a b memberA memberB different
    obtain ⟨_, _, fileA, -, -, one⟩ := source a memberA
    obtain ⟨_, _, fileB, -, -, two⟩ := source b memberB
    exact one.path_ne two (start.current.file_at_way plain _ _ fileA) (start.current.file_at_way plain _ _ fileB)
      different
  · intro path size
    constructor
    · rintro ⟨entry, member, rfl, rfl⟩
      obtain ⟨rest, content, file, small, wants, place⟩ := source entry member
      exact ⟨rest, content, file, place.path, place.size, by rw [place.size]; exact small, wants⟩
    · rintro ⟨rest, content, file, rfl, rfl, small, wants⟩
      obtain ⟨entry, member, place⟩ := complete rest content file small wants
      exact ⟨entry, member, place.path, place.size⟩

-- The walk begins in `src` and goes down one level, on which the one file with a fitting name is.
theorem discover_glob_of_sources :
    let sources : Directory := .entry "a.ts".toList (.file [10]) (.entry ['b'] (.directory
      (.entry "c.ts".toList (.file [10]) .empty)) .empty)
    let top : Directory := .entry ['w'] (.directory (.entry "src".toList (.directory sources) .empty)) .empty
    let tree : FileTree := ⟨top, "/w".toList⟩
    ∃ plan, ∃ found : List FileEntry, Plan.make tree "/w".toList ["src/*.ts".toList] [] = .ok plan ∧
      plan.discover tree ⟨20, 100, false⟩ = found.map .ok ∧ (found.map FileEntry.path).Nodup ∧
      ∃ entry ∈ found, entry.path = "src/a.ts".toList ∧ entry.size = 1 := by
  intro sources top tree
  let glob : Glob := ⟨"src/*.ts".toList, [.literal 's', .literal 'r', .literal 'c', .literal '/', .anyRun, .literal '.',
    .literal 't', .literal 's']⟩
  have readable : Plan.readGlob "src/*.ts".toList = .ok glob := by rfl
  obtain ⟨plan, found, made, enumerated, apart, members⟩ := discover_glob tree "/w".toList "src/*.ts".toList glob
    ⟨top, [(['w'], .entry "src".toList (.directory sources) .empty)]⟩ ⟨20, 100, false⟩ rfl (by decide +kernel)
    (by decide +kernel) (by decide +kernel) readable rfl (by decide +kernel) (by decide +kernel)
  refine ⟨plan, found, made, enumerated, apart, (members "src/a.ts".toList 1).mpr ⟨["a.ts".toList], [10], rfl, ?_⟩⟩
  exact ⟨by decide +kernel, rfl, by decide, by decide, by decide, .inl (by decide +kernel), by decide +kernel⟩

-- No segment is a double star, so the walk goes down three levels, and the file that the glob matches is one below.
theorem deep_alternative_missed :
    let tree : FileTree := ⟨.entry ['w'] (.directory (.entry "src".toList (.directory (.entry ['a'] (.directory
      (.entry ['b'] (.directory (.entry "x.ts".toList (.file [10]) .empty)) .empty)) .empty)) .empty)) .empty,
      "/w".toList⟩
    let pattern := "\x7blib,src/**\x7d/*.ts".toList
    FilePattern.hasGlobChars pattern = true ∧ (∀ segment ∈ Text.pieces '/' pattern, IsName segment) ∧
      tree.file? "/w/src/a/b/x.ts".toList = some [10] ∧ Plan.leadOf pattern = [] ∧
      (Plan.readGlob pattern).toOption.map (fun glob => glob.isMatch "src/a/b/x.ts".toList) = some true ∧
      (Plan.make tree "/w".toList [pattern] []).toOption.map
        (fun plan => plan.discover tree ⟨20, 100, false⟩) = some [] := by
  decide +kernel

end BlockSearch
