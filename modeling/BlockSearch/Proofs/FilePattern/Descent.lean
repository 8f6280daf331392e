import BlockSearch.Proofs.Discovery.Planning

set_option autoImplicit false

namespace BlockSearch

namespace Path

def Descends (path : Text) : Prop := ['.', '.'] ∉ Text.pieces '/' path

instance (path : Text) : Decidable (Descends path) := inferInstanceAs (Decidable (_ ∉ _))

theorem descends_append (front back : Text) : Descends (front ++ '/' :: back) ↔ Descends front ∧ Descends back := by
  rw [Descends, Text.pieces_append, List.mem_append, not_or]
  rfl

theorem descends_joined (parts : List Text) (some : parts ≠ []) :
    Descends (Text.joined ['/'] parts) ↔ ∀ part ∈ parts, Descends part := by
  have flat : Text.pieces '/' (Text.joined ['/'] parts) = parts.flatMap (Text.pieces '/') :=
    Text.pieces_by_joined _ '/' rfl parts some
  simp only [Descends, flat, List.mem_flatMap, not_exists, not_and]

theorem Descends.piece {path : Text} (descends : Descends path) (piece : Text) (member : piece ∈ Text.pieces '/' path) :
    Descends piece := by
  have single := (Text.pieces_single_iff '/' piece piece).mpr ⟨rfl, Text.piece_free '/' path piece member⟩
  rw [Descends, single, List.mem_singleton]
  rintro rfl
  exact descends member

theorem Descends.undotted {path : Text} (descends : Descends path) : Descends (undotted path) := by
  rcases undotted_cases path with dotted | same
  · rw [dotted] at descends
    exact ((descends_append ['.'] _).mp descends).2
  · exact same ▸ descends

end Path

namespace FilePattern

open BlockSearch.Path (Descends)

theorem offer_types_parts (segments : List Text) (part : Text) (member : part ∈ offerTypes segments) :
    part ∈ segments ∨ ∃ segment ∈ segments, part = typesAlternative ++ segment := by
  rcases offer_types_cases segments with same | ⟨before, c, name, after, -, -, cut, offers⟩
  · exact .inl (same ▸ member)
  · rw [offers, List.mem_append, List.mem_cons, List.mem_cons] at member
    rw [cut]
    rcases member with front | here | offered | later
    · exact .inl (List.mem_append_left _ front)
    · exact .inl (by simp [here])
    · exact .inr ⟨c :: name, by simp, offered⟩
    · exact .inl (by simp [later])

theorem types_descend (segment : Text) (free : '/' ∉ segment) : Descends (typesAlternative ++ segment) := by
  have cut : typesAlternative ++ segment = "\x7b@types".toList ++ '/' :: (",\x7d".toList ++ segment) := rfl
  have single : Text.pieces '/' (",\x7d".toList ++ segment) = [",\x7d".toList ++ segment] :=
    (Text.pieces_single_iff '/' _ _).mpr ⟨rfl, by simpa using free⟩
  rw [cut, Path.descends_append]
  refine ⟨by decide +kernel, ?_⟩
  rw [Descends, single, List.mem_singleton]
  exact fun same => absurd (congrArg List.head? same) (by simp)

theorem with_types_descends (pattern : Text) (descends : Descends pattern) : Descends (withTypesPackage pattern) := by
  have some := Text.pieces_ne_nil '/' pattern
  rw [withTypesPackage, Path.descends_joined _ (offer_types_ne_nil _ some)]
  intro part member
  rcases offer_types_parts _ part member with kept | ⟨segment, inside, rfl⟩
  · exact descends.piece part kept
  · exact types_descend segment (Text.piece_free '/' pattern segment inside)

theorem extended_descends (pattern : Text) (descends : Descends pattern) :
    Descends (pattern ++ '.' :: extensionClass) := by
  obtain ⟨front, last, cut, longer⟩ := Text.pieces_extended '/' pattern ('.' :: extensionClass) (by decide +kernel)
  rw [Descends, cut] at descends
  rw [Descends, longer]
  simp only [List.mem_append, List.mem_singleton, not_or] at descends ⊢
  refine ⟨descends.1, fun same => ?_⟩
  have length := congrArg List.length same
  have many : 2 < extensionClass.length := by decide +kernel
  simp only [List.length_append, List.length_cons, List.length_nil] at length
  omega

theorem complete_descends (pattern : Text) (descends : Descends pattern) : Descends (complete pattern) := by
  have files : Descends recursiveFiles := by decide +kernel
  have completed := complete_completed pattern
  generalize complete pattern = result at completed
  cases completed with
  | named extension => exact with_types_descends pattern descends
  | slashed directory slash =>
      rw [slash, Path.descends_append] at descends
      exact (Path.descends_append _ _).mpr ⟨with_types_descends directory descends.1, files⟩
  | plain plain last => exact (Path.descends_append _ _).mpr ⟨with_types_descends pattern descends, files⟩
  | glob special last => exact extended_descends _ (with_types_descends pattern descends)
  | names all => decide +kernel

theorem complete_unnamed_special (pattern : Text) (unnamed : namesExtension pattern = false) :
    hasGlobChars (complete pattern) = true := by
  have special (front : Text) : hasGlobChars (front ++ extensionClass) = true := by
    have class_special : hasGlobChars extensionClass = true := by decide +kernel
    rw [hasGlobChars, List.any_append]
    exact (Bool.or_eq_true _ _).mpr (.inr class_special)
  have files (front : Text) : front ++ '/' :: recursiveFiles = (front ++ "/**/*.".toList) ++ extensionClass := by
    simp [recursiveFiles]
  have completed := complete_completed pattern
  generalize complete pattern = result at completed
  cases completed with
  | named extension =>
      rw [unnamed] at extension
      cases extension
  | slashed directory slash => exact files _ ▸ special _
  | plain plain last => exact files _ ▸ special _
  | glob many last => exact (List.append_cons _ _ _).symm ▸ special _
  | names all => exact special ['*', '.']

theorem complete_plain_last (pattern : Text) (plain : hasGlobChars (complete pattern) = false) :
    complete pattern ≠ [] ∧ (complete pattern).getLast? ≠ some '/' := by
  have named : namesExtension pattern = true := by
    rw [← Bool.not_eq_false]
    intro unnamed
    rw [complete_unnamed_special pattern unnamed] at plain
    cases plain
  rw [complete_named pattern named]
  have last : (withTypesPackage pattern).getLast? = pattern.getLast? := with_types_last pattern
  have ends : pattern.getLast? ≠ some '/' := by
    intro slash
    obtain ⟨front, rfl⟩ := List.getLast?_eq_some_iff.mp slash
    rw [names_extension_slash] at named
    cases named
  refine ⟨?_, last ▸ ends⟩
  intro none
  rw [none, eq_comm, List.getLast?_nil, List.getLast?_eq_none_iff] at last
  rw [last] at named
  exact absurd named (by decide +kernel)

end FilePattern

end BlockSearch
