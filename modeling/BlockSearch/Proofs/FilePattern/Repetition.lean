import BlockSearch.Proofs.FilePattern.Completion
import BlockSearch.Proofs.Text.Search

set_option autoImplicit false

namespace BlockSearch.FilePattern

section Named

variable (lead segment : Text) (free : '.' ∉ lead)
include free

theorem braced_behind :
    bracedExtensions (lead ++ segment) =
      (bracedExtensions segment).map fun (stem, alternatives) => (lead ++ stem, alternatives) := by
  rw [bracedExtensions, bracedExtensions]
  cases cut : Text.splitAtLast ['.', '{'] segment with
  | none => rw [Text.split_at_last_apart '.' ['{'] lead segment free cut, Option.map_none]
  | some found =>
      obtain ⟨stem, rest⟩ := found
      rw [Text.split_at_last_lead _ lead _ _ _ cut]
      cases closing : Text.beforeTail ['}'] rest <;> simp [closing]

theorem segment_names_behind (named : segmentNamesExtension segment = true) :
    segmentNamesExtension (lead ++ segment) = true := by
  have longer (stem : Text) (some : (!stem.isEmpty) = true) : (!(lead ++ stem).isEmpty) = true := by simp_all
  rw [segmentNamesExtension, Bool.or_eq_true] at named ⊢
  rcases named with default | named
  · obtain ⟨extension, member, stemmed⟩ := List.any_eq_true.mp default
    refine .inl (List.any_eq_true.mpr ⟨extension, member, ?_⟩)
    cases cut : Text.beforeTail ('.' :: extension) segment with
    | none => simp [cut] at stemmed
    | some stem =>
        rw [cut] at stemmed
        rw [Text.before_tail_lead _ lead _ _ cut]
        exact longer stem stemmed
  · refine .inr ?_
    rw [braced_behind lead segment free]
    cases braced : bracedExtensions segment with
    | some found =>
        rw [braced] at named
        obtain ⟨stemmed, extensions⟩ := Bool.and_eq_true_iff.mp named
        exact Bool.and_eq_true_iff.mpr ⟨longer found.1 stemmed, extensions⟩
    | none =>
        rw [braced, endsInShortExtension] at named
        rw [Option.map_none, endsInShortExtension]
        cases cut : Text.splitAtLast ['.'] segment with
        | none => simp [cut] at named
        | some found =>
            rw [cut] at named
            rw [Text.split_at_last_lead _ lead _ _ _ cut]
            simp only [Bool.and_eq_true] at named ⊢
            obtain ⟨⟨⟨stemmed, some⟩, short⟩, letters⟩ := named
            exact ⟨⟨⟨longer found.1 stemmed, some⟩, short⟩, letters⟩

end Named

theorem segment_names_extended (segment : Text) (nonempty : segment ≠ []) :
    segmentNamesExtension (segment ++ '.' :: extensionClass) = true := by
  have cut : Text.splitAtLast ['.', '{'] ('.' :: extensionClass) = some ([], extensionClass.tail) := by decide +kernel
  have closing : Text.beforeTail ['}'] extensionClass.tail = some (Text.joined [','] defaultExtensions) := by
    decide +kernel
  have extensions : ((Text.pieces ',' (Text.joined [','] defaultExtensions)).all fun alternative =>
      !alternative.isEmpty && alternative.all fun c => CharClass.isAsciiAlphanumeric c || c == '.') = true := by
    decide +kernel
  have braced := Text.split_at_last_lead _ segment _ _ _ cut
  rw [List.append_nil] at braced
  rw [segmentNamesExtension, bracedExtensions, braced]
  simp only [closing, Option.map_some, extensions, Bool.and_true]
  simp [nonempty]

section Offered

def EndsInPackages (segments : List Text) : Prop :=
  ∃ before, packagesDirectory ∉ before ∧ segments = before ++ [packagesDirectory]

def OffersTypes (segments : List Text) : Prop :=
  ∃ before c name after, packagesDirectory ∉ before ∧ c ≠ '@' ∧
    segments = before ++ packagesDirectory :: (c :: name) :: after

theorem OffersTypes.mem {segments : List Text} (offers : OffersTypes segments) : packagesDirectory ∈ segments := by
  obtain ⟨before, c, name, after, -, -, rfl⟩ := offers
  simp

theorem offers_concat_iff (front : List Text) (last : Text) :
    OffersTypes (front ++ [last]) ↔
      OffersTypes front ∨ EndsInPackages front ∧ last ≠ [] ∧ last.head? ≠ some '@' := by
  constructor
  · rintro ⟨before, c, name, after, first, unscoped, same⟩
    cases after using List.reverseRecOn with
    | nil =>
        have ending : front ++ [last] = (before ++ [packagesDirectory]) ++ [c :: name] := by simpa using same
        obtain ⟨ends, named⟩ := List.append_inj' ending rfl
        obtain rfl := List.singleton_inj.mp named
        exact .inr ⟨⟨before, first, ends⟩, by simp, by simpa using unscoped⟩
    | append_singleton after final =>
        rw [← List.cons_append, ← List.cons_append, ← List.append_assoc] at same
        exact .inl ⟨before, c, name, after, first, unscoped, (List.append_inj' same rfl).1⟩
  · rintro (⟨before, c, name, after, first, unscoped, rfl⟩ | ⟨⟨before, first, rfl⟩, nonempty, unscoped⟩)
    · exact ⟨before, c, name, after ++ [last], first, unscoped, by simp⟩
    · obtain ⟨c, name, rfl⟩ := List.exists_cons_of_ne_nil nonempty
      exact ⟨before, c, name, [], first, by simpa using unscoped, by simp⟩

theorem offers_slash_iff (directory : Text) :
    OffersTypes (Text.pieces '/' (directory ++ ['/'])) ↔ OffersTypes (Text.pieces '/' directory) := by
  simp [Text.pieces_append_last, offers_concat_iff]

theorem offers_below_iff (directory : Text) :
    OffersTypes (Text.pieces '/' (directory ++ '/' :: recursiveFiles)) ↔
      OffersTypes (Text.pieces '/' directory) ∨ EndsInPackages (Text.pieces '/' directory) := by
  have below : Text.pieces '/' recursiveFiles = ["**".toList] ++ [['*'] ++ '.' :: extensionClass] := by decide +kernel
  have noPackages (segments : List Text) : ¬ EndsInPackages (segments ++ ["**".toList]) := by
    rintro ⟨before, -, same⟩
    exact absurd (List.append_inj' same rfl).2 (by decide)
  have unscoped : "**".toList ≠ [] ∧ "**".toList.head? ≠ some '@' := by decide
  rw [Text.pieces_append, below, ← List.append_assoc, offers_concat_iff, offers_concat_iff]
  simp only [noPackages, unscoped, false_and, or_false, and_true, not_false_eq_true, ne_eq]

-- It is only how the last segment begins that makes a difference.
theorem offers_extended_iff (pattern : Text) (nonempty : lastSegment pattern ≠ []) :
    OffersTypes (Text.pieces '/' (pattern ++ '.' :: extensionClass)) ↔ OffersTypes (Text.pieces '/' pattern) := by
  obtain ⟨front, last, cut, longer⟩ := Text.pieces_extended '/' pattern ('.' :: extensionClass) (by decide +kernel)
  rw [lastSegment, cut, List.getLastD_concat] at nonempty
  rw [cut, longer, offers_concat_iff, offers_concat_iff, List.head?_append_of_ne_nil _ nonempty]
  simp [nonempty]

theorem pieces_with_types (pattern : Text) (before after : List Text) (c : Char) (name : Text)
    (first : packagesDirectory ∉ before) (unscoped : c ≠ '@')
    (cut : Text.pieces '/' pattern = before ++ packagesDirectory :: (c :: name) :: after) :
    Text.pieces '/' (withTypesPackage pattern) =
      before ++ packagesDirectory :: "\x7b@types".toList :: (",\x7d".toList ++ c :: name) :: after := by
  have slash : typesAlternative = "\x7b@types".toList ++ '/' :: ",\x7d".toList := by decide
  have free (part : Text) (member : part ∈ before ++ packagesDirectory :: (c :: name) :: after) : '/' ∉ part :=
    Text.piece_free '/' pattern part (cut ▸ member)
  have divided : withTypesPackage pattern = Text.joined ['/']
      ((before ++ [packagesDirectory]) ++ "\x7b@types".toList :: (",\x7d".toList ++ c :: name) :: after) := by
    rw [withTypesPackage, cut, offer_types_first before after c name first unscoped, List.append_cons,
      Text.joined_divided '/' (before ++ [packagesDirectory]) _ (by simp) (by simp),
      Text.joined_divided '/' (before ++ [packagesDirectory]) _ (by simp) (by simp),
      Text.joined_cons '/' _ ((",\x7d".toList ++ c :: name) :: after) (by simp), Text.joined_prepend, Text.joined_prepend,
      slash, List.append_assoc, List.cons_append]
  rw [divided, List.append_assoc, List.singleton_append]
  refine Text.pieces_joined '/' _ (fun part member => ?_) (by simp)
  simp only [List.mem_append, List.mem_cons] at member
  rcases member with front | rfl | rfl | rfl | behind
  · exact free part (by simp [front])
  · exact free _ (by simp)
  · decide
  · have named := free (c :: name) (by simp)
    simpa using named
  · exact free part (by simp [behind])

theorem with_types_offers_iff (pattern : Text) :
    OffersTypes (Text.pieces '/' (withTypesPackage pattern)) ↔ OffersTypes (Text.pieces '/' pattern) := by
  rcases offer_types_cases (Text.pieces '/' pattern) with same | ⟨before, c, name, after, first, unscoped, cut, -⟩
  · rw [withTypesPackage, same, Text.joined_pieces]
  · rw [pieces_with_types pattern before after c name first unscoped cut]
    exact iff_of_true ⟨before, '\x7b', _, _, first, by decide, rfl⟩ ⟨before, c, name, after, first, unscoped, cut⟩

theorem with_types_same_iff (pattern : Text) :
    withTypesPackage pattern = pattern ↔ ¬ OffersTypes (Text.pieces '/' pattern) := by
  constructor
  · rintro same ⟨before, c, name, after, first, unscoped, cut⟩
    have longer := pieces_with_types pattern before after c name first unscoped cut
    rw [same, cut] at longer
    simpa using congrArg List.length longer
  · intro none
    rcases offer_types_cases (Text.pieces '/' pattern) with same | ⟨before, c, name, after, first, unscoped, cut, -⟩
    · rw [withTypesPackage, same, Text.joined_pieces]
    · exact absurd ⟨before, c, name, after, first, unscoped, cut⟩ none

theorem last_segment_with_types (pattern : Text) :
    ∃ lead, '.' ∉ lead ∧ lastSegment (withTypesPackage pattern) = lead ++ lastSegment pattern := by
  rcases offer_types_cases (Text.pieces '/' pattern) with same | ⟨before, c, name, after, first, unscoped, cut, -⟩
  · exact ⟨[], by simp, by rw [withTypesPackage, same, Text.joined_pieces, List.nil_append]⟩
  · rw [lastSegment, lastSegment, pieces_with_types pattern before after c name first unscoped cut, cut]
    cases after using List.reverseRecOn with
    | nil => exact ⟨",\x7d".toList, by decide, by simp [List.getLastD_eq_getLast?]⟩
    | append_singleton after last =>
        refine ⟨[], by simp, ?_⟩
        simp only [← List.cons_append, ← List.append_assoc, List.getLastD_concat, List.nil_append]

end Offered

theorem last_segment_behind (front back : Text) : lastSegment (front ++ '/' :: back) = lastSegment back := by
  obtain ⟨segments, cut⟩ := last_segment_cut back
  rw [lastSegment, Text.pieces_append, cut, ← List.append_assoc, List.getLastD_concat]

theorem last_segment_nonempty (pattern : Text) (nonempty : pattern ≠ []) (last : pattern.getLast? ≠ some '/') :
    lastSegment pattern ≠ [] := by
  intro empty
  obtain ⟨front, before, whole⟩ := last_segment_divides pattern
  rw [empty, List.append_nil] at whole
  rw [← whole] at before
  obtain ⟨c, ends⟩ := Option.ne_none_iff_exists'.mp (List.getLast?_eq_none_iff.not.mpr nonempty)
  exact last (before c ends ▸ ends)

theorem last_segment_completed (pattern : Text) (special : hasGlobChars pattern = true)
    (last : pattern.getLast? ≠ some '/') : lastSegment (withTypesPackage pattern) ≠ [] := by
  have nonempty : pattern ≠ [] := by
    rintro rfl
    cases special
  obtain ⟨lead, -, ends⟩ := last_segment_with_types pattern
  rw [ends]
  exact List.append_ne_nil_of_right_ne_nil lead (last_segment_nonempty pattern nonempty last)

theorem Completed.names_extension {pattern result : Text} (completed : Completed pattern result) :
    namesExtension result = true := by
  have files : segmentNamesExtension (lastSegment recursiveFiles) = true := by decide +kernel
  rw [namesExtension]
  cases completed with
  | named extension =>
      -- The offer puts no point before the last segment.
      obtain ⟨lead, free, ends⟩ := last_segment_with_types pattern
      rw [ends]
      exact segment_names_behind lead _ free extension
  | slashed directory slash => simpa only [last_segment_behind] using files
  | plain plain last => simpa only [last_segment_behind] using files
  | glob special last =>
      obtain ⟨front, segment, cut, longer⟩ :=
        Text.pieces_extended '/' (withTypesPackage pattern) ('.' :: extensionClass) (by decide +kernel)
      have nonempty := last_segment_completed pattern special last
      rw [lastSegment, cut, List.getLastD_concat] at nonempty
      rw [lastSegment, longer, List.getLastD_concat]
      exact segment_names_extended segment nonempty
  | names all => decide +kernel

-- The patterns that are offered types once more when what they are completed to is completed.
inductive OffersAgain (pattern : Text) : Prop
  -- A package below a directory of packages that is no scope, as that of the types is.
  | package (offers : OffersTypes (Text.pieces '/' pattern))
  -- The directory itself, below which everything is a package.
  | directory (plain : hasGlobChars pattern = false) (packages : EndsInPackages (Text.pieces '/' pattern))
  | slashed (directory : Text) (slash : pattern = directory ++ ['/'])
      (packages : EndsInPackages (Text.pieces '/' directory))

theorem offers_below_types_iff (directory : Text) :
    OffersTypes (Text.pieces '/' (withTypesPackage directory ++ '/' :: recursiveFiles)) ↔
      OffersTypes (Text.pieces '/' directory) ∨ EndsInPackages (Text.pieces '/' directory) := by
  by_cases offers : OffersTypes (Text.pieces '/' directory)
  · exact iff_of_true ((offers_below_iff _).mpr (.inl ((with_types_offers_iff directory).mpr offers))) (.inl offers)
  · rw [(with_types_same_iff directory).mpr offers, offers_below_iff]

theorem packages_below (directory : Text) (plain : hasGlobChars directory = false)
    (packages : EndsInPackages (Text.pieces '/' directory)) :
    complete directory = withTypesPackage directory ++ '/' :: recursiveFiles := by
  obtain ⟨before, -, cut⟩ := packages
  have last : lastSegment directory = packagesDirectory := by rw [lastSegment, cut, List.getLastD_concat]
  have ends : directory.getLast? = some 's' := last_segment_ends directory 's' (by rw [last]; decide)
  have unnamed : namesExtension directory = false := by
    rw [namesExtension, last]
    decide +kernel
  rw [complete_unnamed directory plain (by rw [ends]; decide) unnamed, complete_directory]

theorem Completed.offers {pattern result : Text} (completed : Completed pattern result)
    (offers : OffersTypes (Text.pieces '/' pattern)) : OffersTypes (Text.pieces '/' result) := by
  cases completed with
  | named extension => exact (with_types_offers_iff pattern).mpr offers
  | slashed directory slash =>
      rw [slash, offers_slash_iff] at offers
      exact (offers_below_types_iff directory).mpr (.inl offers)
  | plain plain last => exact (offers_below_types_iff pattern).mpr (.inl offers)
  | glob special last =>
      rw [offers_extended_iff _ (last_segment_completed pattern special last), with_types_offers_iff]
      exact offers
  | names all => exact absurd (all ▸ offers.mem) (by decide +kernel)

theorem Completed.offers_again {pattern result : Text} (completed : Completed pattern result)
    (offers : OffersTypes (Text.pieces '/' result)) : OffersAgain pattern := by
  cases completed with
  | named extension => exact .package ((with_types_offers_iff pattern).mp offers)
  | slashed directory slash =>
      rcases (offers_below_types_iff directory).mp offers with package | packages
      · exact .package (slash ▸ (offers_slash_iff directory).mpr package)
      · exact .slashed directory slash packages
  | plain plain last =>
      rcases (offers_below_types_iff pattern).mp offers with package | packages
      · exact .package package
      · exact .directory plain packages
  | glob special last =>
      rw [offers_extended_iff _ (last_segment_completed pattern special last), with_types_offers_iff] at offers
      exact .package offers
  | names all => exact absurd offers.mem (by decide +kernel)

theorem complete_offers_iff (pattern : Text) :
    OffersTypes (Text.pieces '/' (complete pattern)) ↔ OffersAgain pattern := by
  refine ⟨(complete_completed pattern).offers_again, fun again => ?_⟩
  cases again with
  | package offers => exact (complete_completed pattern).offers offers
  | directory plain packages =>
      rw [packages_below pattern plain packages]
      exact (offers_below_types_iff pattern).mpr (.inr packages)
  | slashed directory slash packages =>
      rw [slash, complete_directory]
      exact (offers_below_types_iff directory).mpr (.inr packages)

-- What is completed names an extension, so that it is completed to itself but where types are offered with it.
theorem complete_again (pattern : Text) :
    namesExtension (complete pattern) = true ∧
      (complete (complete pattern) = complete pattern ↔ ¬ OffersAgain pattern) := by
  have named := (complete_completed pattern).names_extension
  refine ⟨named, ?_⟩
  rw [complete_named _ named, with_types_same_iff, complete_offers_iff]

-- The types of one package are offered twice: the first offer begins with a brace, and not as the scope of the types.
theorem types_offered_twice :
    complete "node_modules/lodash".toList = "node_modules/\x7b@types/,\x7dlodash/".toList ++ recursiveFiles ∧
      complete (complete "node_modules/lodash".toList) =
        "node_modules/\x7b@types/,\x7d\x7b@types/,\x7dlodash/".toList ++ recursiveFiles ∧
      complete (complete "node_modules/lodash".toList) ≠ complete "node_modules/lodash".toList := by
  decide +kernel

end BlockSearch.FilePattern
