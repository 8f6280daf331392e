import BlockSearch.Proofs.FilePattern.PackageTypes

set_option autoImplicit false

namespace BlockSearch.FilePattern

open Glob

section Names

theorem rest_is_last (path : Text) (rest : Bytes) (begins : BeginsSegment (Text.utf8 path) rest) (free : slash ∉ rest) :
    rest = Text.utf8 (lastSegment path) := by
  rcases begins with rfl | ⟨above, cut⟩
  · rw [slash_free_iff] at free
    rw [lastSegment, (Text.pieces_single_iff '/' path path).mpr ⟨rfl, free⟩]
    rfl
  · obtain ⟨front, back, rfl, -, rfl⟩ := Text.cut_at_char '/' rfl path above rest cut
    rw [slash_free_iff] at free
    rw [lastSegment, Text.pieces_append, (Text.pieces_single_iff '/' back back).mpr ⟨rfl, free⟩, List.getLastD_concat]

theorem last_segment_free (path : Text) : '/' ∉ lastSegment path := by
  obtain ⟨front, cut⟩ := last_segment_cut path
  exact Text.piece_free '/' path _ (by simp [cut])

theorem default_extension_cut (segment : Text) (named : endsInDefaultExtension segment = true) :
    ∃ stem extension, extension ∈ defaultExtensions ∧ segment = stem ++ '.' :: extension := by
  obtain ⟨extension, member, stemmed⟩ := List.any_eq_true.mp named
  split at stemmed
  · rename_i stem cut
    exact ⟨stem, extension, member, Text.before_tail_eq _ _ _ cut⟩
  · cases stemmed

def extensionPieces : List Piece := [.literal '.', .alternatives (defaultExtensions.map word)]

theorem extension_accepts (extension : Text) (member : extension ∈ defaultExtensions) :
    allAccept List.isEmpty extensionPieces (Text.utf8 ('.' :: extension)) = true := by
  refine (word_accepts List.isEmpty ['.'] [.alternatives (defaultExtensions.map word)] _).mpr
    ⟨Text.utf8 extension, Text.utf8_append ['.'] extension, ?_⟩
  simp only [allAccept, Piece.accepts]
  exact (any_word_accepts List.isEmpty defaultExtensions _).mpr ⟨extension, member, [], (List.append_nil _).symm, rfl⟩

theorem run_accepts (next : Bytes → Bool) (pieces : List Piece) (text : Text) (rest : Bytes) (free : '/' ∉ text)
    (behind : allAccept next pieces rest = true) :
    allAccept next (.anyRun :: pieces) (Text.utf8 text ++ rest) = true := by
  rw [allAccept, Piece.accepts]
  exact (some_within_iff _ _).mpr ⟨Text.utf8 text, rest, rfl, (slash_free_iff text).mpr free, behind⟩

end Names

section Stars

def afterPieces (state : State) (pieces : List Piece) (previous : Option Char) : State :=
  { state with
    level := { state.level with current := pieces.reverse ++ state.level.current }
    previous := previous }

-- Before this text the stars of a segment are read as these pieces, whatever was read.
def Reads (stars more : Text) (pieces : List Piece) : Prop :=
  ∀ state : State, ∃ previous,
    readAll Plan.dialect 0 state (stars ++ more) = readAll Plan.dialect 0 (afterPieces state pieces previous) more

theorem reads_star (more : Text) (noStar : more.head? ≠ some '*') : Reads ['*'] more [.anyRun] := by
  intro state
  refine ⟨some '*', ?_⟩
  cases more with
  | nil => rfl
  | cons c more =>
      have other : c ≠ '*' := fun same => noStar (congrArg some same)
      have told : state.view.token '*' (c :: more) = .ok (0, .piece .anyRun) :=
        congrArg Except.ok (star_token_one state.view c more other)
      exact read_all_taken Plan.dialect rfl state _ '*' (c :: more) 0 (.piece .anyRun) told rfl

theorem reads_names (more : Text) (noStar : more.head? ≠ some '*') :
    Reads "*.*".toList more [.anyRun, .literal '.', .anyRun] := fun state =>
  reads_star more noStar (afterPieces state [.anyRun, .literal '.'] (some '.'))

theorem reads_two_stars_point (more : Text) : Reads "**".toList ('.' :: more) [.anyRun, .anyRun] := by
  intro state
  refine ⟨some '*', ?_⟩
  have told : state.view.token '*' ('*' :: '.' :: more) = .ok (1, .twoStars) := by
    have next : state.view.twoStarsToken (some '.') = (1, .twoStars) := by
      simp [View.twoStarsToken]
    exact congrArg Except.ok next
  exact read_all_taken Plan.dialect rfl state _ '*' ('*' :: '.' :: more) 1 .twoStars told rfl

theorem reads_extension (state : State) :
    ∃ previous,
      readAll Plan.dialect 0 state ('.' :: extensionClass) = .ok (afterPieces state extensionPieces previous) := by
  have point := read_word Plan.dialect state ['.'] extensionClass (List.all_eq_true.mp (by decide))
  have words := all_ordinary defaultExtensions (by decide +kernel)
  have choice := read_braces Plan.dialect (state.written ['.']) _ _ [] words
  rw [List.append_nil] at choice
  exact ⟨some '}', point.trans choice⟩

end Stars

section Front

variable (front last longer path : Text) (taken stars : List Piece)

theorem read_segments_front (before : Text.BeforePiece '/' front) (free : ']' ∉ last) (whole : State)
    (read : readAll Plan.dialect 0 .start (front ++ last) = .ok whole) :
    ∃ state, BetweenSegments state.level.current ∧
      ∀ more, readAll Plan.dialect 0 .start (front ++ more) = readAll Plan.dialect 0 state more := by
  obtain rfl | ⟨init, c, rfl⟩ := List.eq_nil_or_concat front
  · exact ⟨.start, .inl rfl, fun _ => rfl⟩
  · rw [List.concat_eq_append] at before read ⊢
    obtain rfl : c = '/' := before c (by simp)
    cases begun : readAll Plan.dialect 0 .start (init ++ ['/']) with
    | error cause =>
        obtain ⟨other, fault⟩ := read_all_fault last Plan.dialect rfl '/' (by decide) 0 .start init (Nat.zero_le _) cause
          begun (.inr free)
        rw [List.append_assoc, List.singleton_append, fault] at read
        cases read
    | ok state =>
        have settled := read_all_settled Plan.dialect rfl 0 .start state _ (start_settled _) begun
        have previous : state.previous = some '/' := by
          rw [read_all_previous Plan.dialect 0 .start state _ begun, List.getLast?_concat, Option.some_or]
        refine ⟨state, settled.between previous, fun more => ?_⟩
        rw [List.append_assoc, List.singleton_append]
        exact read_all_front more Plan.dialect rfl '/' (by decide) 0 .start state init (Nat.zero_le _) begun

-- Where the stars of the last segment take no slash, what stands behind a point may be read in their place.
theorem filtered (before : Text.BeforePiece '/' front) (free : ']' ∉ last) (plain : Reads last [] (taken ++ [.anyRun]))
    (extended : Reads longer ('.' :: extensionClass) stars)
    (within : ∀ rest, allAccept List.isEmpty (taken ++ [.anyRun]) rest = true → slash ∉ rest) (glob : Glob)
    (read : Plan.readGlob (front ++ last) = .ok glob) (matched : glob.isMatch path = true)
    (accepts : allAccept List.isEmpty (stars ++ extensionPieces) (Text.utf8 (lastSegment path)) = true) :
    ∃ filtered, Plan.readGlob (front ++ (longer ++ '.' :: extensionClass)) = .ok filtered ∧
      filtered.isMatch path = true := by
  obtain ⟨whole, begun, closed, rfl⟩ := (read_glob_iff _ glob).mp read
  obtain ⟨state, between, onward⟩ := read_segments_front front last before free whole begun
  obtain ⟨previous, same⟩ := plain state
  rw [onward, ← List.append_nil last, same] at begun
  cases begun
  obtain ⟨previous, point⟩ := extended state
  obtain ⟨last, ends⟩ := reads_extension (afterPieces state stars previous)
  let final := afterPieces (afterPieces state stars previous) extensionPieces last
  have plainly : EndsPlainly (afterPieces state (taken ++ [Piece.anyRun]) previous).level.current := by
    exact ⟨by simp [afterPieces], by simp [afterPieces], by simp [afterPieces]⟩
  have filteredPlainly : EndsPlainly final.level.current := by
    refine ⟨?_, ?_, ?_⟩ <;> simp [final, afterPieces, extensionPieces]
  refine ⟨_, (read_glob_iff _ _).mpr ⟨final, ?_, closed, rfl⟩, ?_⟩
  · rw [onward, point, ends]
  have accepted := (is_match_current _ path _ plainly).symm.trans matched
  rw [is_match_current _ _ _ filteredPlainly]
  simp only [final, afterPieces, List.reverse_append, List.reverse_reverse, List.append_assoc,
    all_accept_append] at accepted ⊢
  refine all_accept_segments _ _ state.level.current _ between (fun rest begins here => ?_) accepted
  simp only [← all_accept_append] at here ⊢
  rw [rest_is_last path rest begins (within rest here)]
  exact accepts

end Front

section Kept

theorem run_free (rest : Bytes) (taken : allAccept List.isEmpty [.anyRun] rest = true) : slash ∉ rest := by
  rw [allAccept, Piece.accepts] at taken
  exact (some_within_empty rest).mp taken

theorem names_free (rest : Bytes) (taken : allAccept List.isEmpty [.anyRun, .literal '.', .anyRun] rest = true) :
    slash ∉ rest := by
  rw [allAccept, Piece.accepts] at taken
  obtain ⟨front, back, rfl, free, behind⟩ := (some_within_iff _ rest).mp taken
  obtain ⟨inner, rfl, last⟩ := (word_accepts List.isEmpty ['.'] [.anyRun] back).mp behind
  have point : slash ∉ Text.utf8 ['.'] := by decide
  simp [free, point, run_free inner last]

variable (stem extension : Text) (member : extension ∈ defaultExtensions) (free : '/' ∉ stem)
include member free

theorem star_keeps :
    allAccept List.isEmpty ([.anyRun] ++ extensionPieces) (Text.utf8 (stem ++ '.' :: extension)) = true := by
  rw [Text.utf8_append]
  exact run_accepts _ _ stem _ free (extension_accepts extension member)

theorem two_stars_keep :
    allAccept List.isEmpty ([.anyRun, .anyRun] ++ extensionPieces) (Text.utf8 (stem ++ '.' :: extension)) = true :=
  run_accepts _ _ [] _ List.not_mem_nil (star_keeps stem extension member free)

theorem names_keep (point : '.' ∈ stem) :
    allAccept List.isEmpty ([.anyRun, .literal '.', .anyRun] ++ extensionPieces)
      (Text.utf8 (stem ++ '.' :: extension)) = true := by
  obtain ⟨front, back, rfl⟩ := List.append_of_mem point
  simp only [List.mem_append, List.mem_cons, not_or] at free
  rw [List.append_assoc, Text.utf8_append]
  refine run_accepts _ _ front _ free.1 ((word_accepts List.isEmpty ['.'] _ _).mpr ⟨_, Text.utf8_append ['.'] _, ?_⟩)
  exact star_keeps back extension member free.2.2

end Kept

-- A path that a pattern with stars for its last segment matches, and that the extensions leave it.
inductive Keeps (pattern path : Text) : Prop
  | star (last : lastSegment pattern = ['*'])
  -- Names, not behind a directory.
  | bare (whole : pattern = "*.*".toList)
  -- Names below a directory have to have a point before that of the extension.
  | pointed (last : lastSegment pattern = "*.*".toList) (stem extension : Text) (member : extension ∈ defaultExtensions)
      (named : lastSegment path = stem ++ '.' :: extension) (point : '.' ∈ stem)
  -- A double star reaches as far as one star does.
  | flat (last : lastSegment pattern = "**".toList) (flat : Glob) (read : Plan.readGlob pattern.dropLast = .ok flat)
      (matched : flat.isMatch path = true)

section Filter

variable (pattern path : Text) (glob : Glob) (read : Plan.readGlob pattern = .ok glob)
  (matched : glob.isMatch path = true) (named : endsInDefaultExtension (lastSegment path) = true)
include read matched named

theorem extended_keeps (kept : Keeps pattern path) (several : pattern ≠ "*.*".toList) :
    ∃ filtered, Plan.readGlob (pattern ++ '.' :: extensionClass) = .ok filtered ∧ filtered.isMatch path = true := by
  obtain ⟨front, before, divided⟩ := last_segment_divides pattern
  obtain ⟨stem, extension, member, cut⟩ := default_extension_cut _ named
  have free (stem extension : Text) (cut : lastSegment path = stem ++ '.' :: extension) : '/' ∉ stem := fun inside =>
    last_segment_free path (cut ▸ List.mem_append_left _ inside)
  cases kept with
  | star last =>
      rw [last] at divided
      rw [divided] at read
      rw [divided, List.append_assoc]
      have kept := star_keeps stem extension member (free stem extension cut)
      rw [← cut] at kept
      exact filtered front ['*'] ['*'] path [] [.anyRun] before (by decide) (reads_star _ (by simp))
        (reads_star _ (by simp)) run_free glob read matched kept
  | bare whole => exact absurd whole several
  | pointed last stem extension member cut point =>
      rw [last] at divided
      rw [divided] at read
      rw [divided, List.append_assoc]
      have kept := names_keep stem extension member (free stem extension cut) point
      rw [← cut] at kept
      exact filtered front _ _ path [.anyRun, .literal '.'] _ before (by decide) (reads_names _ (by simp))
        (reads_names _ (by simp)) names_free glob read matched kept
  | flat last flat flatRead flatMatched =>
      rw [last] at divided
      have shorter : pattern.dropLast = front ++ ['*'] := by
        rw [divided, List.dropLast_append_of_ne_nil (by decide)]
        rfl
      rw [shorter] at flatRead
      rw [divided, List.append_assoc]
      have kept := two_stars_keep stem extension member (free stem extension cut)
      rw [← cut] at kept
      exact filtered front ['*'] _ path [] _ before (by decide) (reads_star _ (by simp)) (reads_two_stars_point _) run_free
        flat flatRead flatMatched kept

end Filter

section Completed

theorem offer_types_extended (front : List Text) (last more : Text) (nonempty : last ≠ [])
    (other : last ≠ packagesDirectory) (otherToo : last ++ more ≠ packagesDirectory) :
    ∃ others final, offerTypes (front ++ [last]) = others ++ [final] ∧
      offerTypes (front ++ [last ++ more]) = others ++ [final ++ more] := by
  induction front with
  | nil => exact ⟨[], last, by simp [offerTypes, other], by simp [offerTypes, otherToo]⟩
  | cons segment front ih =>
      by_cases packages : segment = packagesDirectory
      · cases front with
        | nil =>
            obtain ⟨c, name, rfl⟩ := List.exists_cons_of_ne_nil nonempty
            by_cases scope : c = '@'
            · exact ⟨[segment], c :: name, by simp [offerTypes, packages, scope], by simp [offerTypes, packages, scope]⟩
            · exact ⟨[segment], typesAlternative ++ c :: name, by simp [offerTypes, packages, scope],
                by simp [offerTypes, packages, scope]⟩
        | cons part others =>
            cases part with
            | nil => exact ⟨segment :: [] :: others, last, by simp [offerTypes, packages], by simp [offerTypes, packages]⟩
            | cons c name =>
                by_cases scope : c = '@'
                · exact ⟨segment :: (c :: name) :: others, last, by simp [offerTypes, packages, scope],
                    by simp [offerTypes, packages, scope]⟩
                · exact ⟨segment :: (typesAlternative ++ c :: name) :: others, last,
                    by simp [offerTypes, packages, scope], by simp [offerTypes, packages, scope]⟩
      · obtain ⟨others, final, plain, longer⟩ := ih
        exact ⟨segment :: others, final, by simp [offerTypes, packages, plain], by simp [offerTypes, packages, longer]⟩

theorem with_types_extended (pattern more : Text) (free : '/' ∉ more) (nonempty : lastSegment pattern ≠ [])
    (other : lastSegment pattern ≠ packagesDirectory) (otherToo : lastSegment pattern ++ more ≠ packagesDirectory) :
    withTypesPackage (pattern ++ more) = withTypesPackage pattern ++ more := by
  obtain ⟨front, last, cut, longer⟩ := Text.pieces_extended '/' pattern more free
  rw [lastSegment, cut, List.getLastD_concat] at nonempty other otherToo
  obtain ⟨others, final, plain, extended⟩ := offer_types_extended front last more nonempty other otherToo
  rw [withTypesPackage, withTypesPackage, cut, longer, plain, extended, Text.joined_append_last, Text.joined_append_last,
    List.append_assoc]

theorem with_types_keep (pattern : Text) (glob : Glob) (read : Plan.readGlob pattern = .ok glob) (last : Char)
    (ends : pattern.getLast? = some last) (noSlash : last ≠ '/') (noStar : last ≠ '*') (noPoint : last ≠ '.')
    (apart : OffersApart pattern) :
    ∃ mapped, Plan.readGlob (withTypesPackage pattern) = .ok mapped ∧
      ∀ path, glob.isMatch path = true → mapped.isMatch path = true := by
  rcases offer_types_cases (Text.pieces '/' pattern) with same | ⟨before, c, name, after, first, unscoped, cut, offers⟩
  · rw [withTypesPackage, same, Text.joined_pieces]
    exact ⟨glob, read, fun _ holds => holds⟩
  · have apartHere := apart before (c :: name) after cut first (List.cons_ne_nil _ _)
      fun scope => unscoped (Option.some.inj scope)
    obtain ⟨mapped, types, mappedRead, -, same⟩ := offered before after (c :: name) pattern glob cut
      (List.cons_ne_nil _ _) last ends noSlash noStar noPoint read apartHere
    rw [withTypesPackage, offers]
    exact ⟨mapped, mappedRead, fun path holds => by rw [same path, holds, Bool.true_or]⟩

def starSegments : List Text := ["*", "**", "*.*"].map String.toList

theorem Keeps.last {pattern path : Text} (kept : Keeps pattern path) : lastSegment pattern ∈ starSegments := by
  cases kept with
  | star last => rw [last]; decide
  | bare whole => rw [whole]; decide +kernel
  | pointed last => rw [last]; decide
  | flat last => rw [last]; decide

theorem complete_stars (pattern : Text) (last : lastSegment pattern ∈ starSegments) (several : pattern ≠ "*.*".toList) :
    complete pattern = withTypesPackage (pattern ++ '.' :: extensionClass) := by
  have unnamed : ∀ segment ∈ starSegments, segmentNamesExtension segment = false := by decide +kernel
  have starred : ∀ segment ∈ starSegments, segment.getLast? = some '*' := by decide
  have plain : ∀ segment ∈ starSegments, segment ≠ [] ∧ segment ≠ packagesDirectory ∧
      segment ++ '.' :: extensionClass ≠ packagesDirectory := by decide +kernel
  have ends := last_segment_ends pattern '*' (starred _ last)
  have special : hasGlobChars pattern = true :=
    List.any_eq_true.mpr ⟨'*', List.mem_of_getLast? ends, by decide⟩
  have noSlash : pattern.getLast? ≠ some '/' := by
    rw [ends]
    decide
  obtain ⟨nonempty, other, otherToo⟩ := plain _ last
  rw [complete_glob pattern special noSlash (unnamed _ last) several,
    with_types_extended pattern _ (by decide +kernel) nonempty other otherToo]

end Completed

-- A file of a searched extension that a glob of stars matches is matched with the extensions put behind the stars, where
-- these leave it and the types that are offered stand apart.
theorem complete_keeps_sources (pattern path : Text) (glob : Glob) (read : Plan.readGlob pattern = .ok glob)
    (matched : glob.isMatch path = true) (named : endsInDefaultExtension (lastSegment path) = true)
    (kept : Keeps pattern path) (apart : OffersApart (pattern ++ '.' :: extensionClass)) :
    ∃ mapped, Plan.readGlob (complete pattern) = .ok mapped ∧ mapped.isMatch path = true := by
  by_cases bare : pattern = "*.*".toList
  · have starRead : Plan.readGlob ['*'] = .ok ⟨['*'], [.anyRun]⟩ := by rfl
    have nameRead : Plan.readGlob "*.*".toList = .ok ⟨"*.*".toList, [.anyRun, .literal '.', .anyRun]⟩ := by rfl
    rw [bare, nameRead, Except.ok.injEq] at read
    have taken : allAccept List.isEmpty [.anyRun, .literal '.', .anyRun] (Text.utf8 path) = true := by
      rw [← matched, ← read]
      exact (is_match_accepts _ _ _ .anyRun rfl (by simp) (by simp)).symm
    have starMatched : (⟨['*'], [.anyRun]⟩ : Glob).isMatch path = true := by
      rw [is_match_accepts _ _ _ .anyRun rfl (by simp) (by simp), allAccept, Piece.accepts]
      exact (some_within_empty _).mpr (names_free _ taken)
    have same : complete pattern = ['*'] ++ '.' :: extensionClass := by
      rw [bare]
      decide +kernel
    rw [same]
    exact extended_keeps ['*'] path _ starRead starMatched named (.star (by decide)) (by decide)
  · obtain ⟨filtered, filteredRead, filteredMatch⟩ := extended_keeps pattern path glob read matched named kept bare
    have ends : (pattern ++ '.' :: extensionClass).getLast? = some '}' := by
      rw [List.getLast?_append_of_ne_nil _ (by simp)]
      decide +kernel
    obtain ⟨mapped, mappedRead, more⟩ := with_types_keep _ filtered filteredRead '}' ends (by decide) (by decide)
      (by decide) apart
    exact ⟨mapped, complete_stars pattern kept.last bare ▸ mappedRead, more path filteredMatch⟩

theorem complete_keeps_sources_of_package :
    let pattern := "node_modules/lodash/*".toList
    ∃ mapped, Plan.readGlob (complete pattern) = .ok mapped ∧
      mapped.isMatch "node_modules/lodash/index.js".toList = true := by
  intro pattern
  exact complete_keeps_sources pattern "node_modules/lodash/index.js".toList
    ⟨pattern, word "node_modules/lodash/".toList ++ [.anyRun]⟩ (by rfl) (by decide +kernel) (by decide +kernel)
    (.star (by decide +kernel))
    (offers_apart_at _ [] [['*'] ++ '.' :: extensionClass] "lodash".toList (by decide +kernel) List.not_mem_nil
      (by decide +kernel))

-- Below a directory the extensions are put behind a name that has one already, and not in the place of it.
theorem names_below_directory_missed :
    lastSegment "src/*.*".toList ∈ starSegments ∧ endsInDefaultExtension (lastSegment "src/a.ts".toList) = true ∧
      (Plan.readGlob "src/*.*".toList).toOption.map (fun glob => glob.isMatch "src/a.ts".toList) = some true ∧
      (Plan.readGlob (complete "src/*.*".toList)).toOption.map (fun mapped => mapped.isMatch "src/a.ts".toList) =
        some false ∧
      (Plan.readGlob (complete "*.*".toList)).toOption.map (fun mapped => mapped.isMatch "a.ts".toList) = some true := by
  decide +kernel

end BlockSearch.FilePattern
