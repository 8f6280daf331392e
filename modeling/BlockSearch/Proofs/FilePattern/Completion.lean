import BlockSearch.FilePattern.Completion
import BlockSearch.Proofs.Text.Pieces
import Mathlib.Data.List.Basic

set_option autoImplicit false

namespace BlockSearch

namespace Text

theorem pieces_append_last (separator : Char) (text : Text) :
    pieces separator (text ++ [separator]) = pieces separator text ++ [[]] := pieces_append separator text []

theorem joined_append_nothing (separator : Char) (parts : List Text) (some : parts ≠ []) :
    joined [separator] (parts ++ [[]]) = joined [separator] parts ++ [separator] := by
  obtain ⟨front, last, rfl⟩ := List.eq_nil_or_concat parts |>.resolve_left some
  rw [List.concat_eq_append, joined_append_last, joined_append_last]
  simp [terminated]

theorem joined_prepend (separator front piece : Text) (others : List Text) :
    joined separator ((front ++ piece) :: others) = front ++ joined separator (piece :: others) := by
  cases others with
  | nil => simp [joined]
  | cons next others => simp [joined]

theorem ends_with_iff (c : Char) (text : Text) : endsWith [c] text = true ↔ text.getLast? = some c := by
  rw [endsWith, beforeTail, ← List.head?_reverse]
  cases text.reverse with
  | nil => simp [afterLead]
  | cons d front =>
      by_cases same : c = d
      · simp [afterLead, same]
      · simp [afterLead, same, Ne.symm same]

end Text

namespace FilePattern

theorem offer_types_first (before after : List Text) (c : Char) (name : Text) (first : packagesDirectory ∉ before)
    (unscoped : c ≠ '@') :
    offerTypes (before ++ packagesDirectory :: (c :: name) :: after) =
      before ++ packagesDirectory :: (typesAlternative ++ c :: name) :: after := by
  induction before with
  | nil => simp [offerTypes, unscoped]
  | cons segment before ih =>
      simp only [List.mem_cons, not_or] at first
      simp only [List.cons_append, offerTypes, if_neg (Ne.symm first.1), ih first.2]

theorem offer_types_cases (segments : List Text) :
    offerTypes segments = segments ∨ ∃ before c name after, packagesDirectory ∉ before ∧ c ≠ '@' ∧
      segments = before ++ packagesDirectory :: (c :: name) :: after ∧
      offerTypes segments = before ++ packagesDirectory :: (typesAlternative ++ c :: name) :: after := by
  induction segments with
  | nil => exact .inl rfl
  | cons segment rest ih =>
      by_cases packages : segment = packagesDirectory
      · cases rest with
        | nil => exact .inl (by simp [offerTypes])
        | cons part others =>
            cases part with
            | nil => exact .inl (by simp [offerTypes, packages])
            | cons c name =>
                by_cases scope : c = '@'
                · exact .inl (by simp [offerTypes, packages, scope])
                · exact .inr ⟨[], c, name, others, List.not_mem_nil, scope, by simp [packages],
                    by simp [offerTypes, packages, scope]⟩
      · rcases ih with same | ⟨before, c, name, after, first, unscoped, cut, offers⟩
        · exact .inl (by simp only [offerTypes, if_neg packages, same])
        · refine .inr ⟨segment :: before, c, name, after, ?_, unscoped, by rw [cut, List.cons_append], ?_⟩
          · simp [first, Ne.symm packages]
          · simp only [offerTypes, if_neg packages, offers, List.cons_append]

theorem offer_types_append (segments : List Text) : offerTypes (segments ++ [[]]) = offerTypes segments ++ [[]] := by
  induction segments with
  | nil => rfl
  | cons segment rest ih =>
      by_cases packages : segment = packagesDirectory
      · cases rest with
        | nil => simp [offerTypes, packages]
        | cons name others =>
            cases name with
            | nil => simp [offerTypes, packages]
            | cons c name => by_cases scope : c = '@' <;> simp [offerTypes, packages, scope]
      · simp only [List.cons_append, offerTypes, if_neg packages, ih]

theorem offer_types_ne_nil (segments : List Text) (some : segments ≠ []) : offerTypes segments ≠ [] := by
  rcases offer_types_cases segments with same | ⟨before, c, name, after, -, -, -, offers⟩
  · rwa [same]
  · simp [offers]

theorem with_types_slash (pattern : Text) :
    withTypesPackage (pattern ++ ['/']) = withTypesPackage pattern ++ ['/'] := by
  rw [withTypesPackage, Text.pieces_append_last, offer_types_append,
    Text.joined_append_nothing _ _ (offer_types_ne_nil _ (Text.pieces_ne_nil '/' pattern)), withTypesPackage]

theorem offer_types_last (segments : List Text) :
    (Text.joined ['/'] (offerTypes segments)).getLast? = (Text.joined ['/'] segments).getLast? := by
  rcases offer_types_cases segments with same | ⟨before, c, name, after, -, -, cut, offers⟩
  · rw [same]
  · have divided (part : Text) : Text.joined ['/'] (before ++ packagesDirectory :: part :: after) =
        Text.joined ['/'] (before ++ [packagesDirectory]) ++ '/' :: Text.joined ['/'] (part :: after) := by
      rw [← Text.joined_divided '/' _ _ (by simp) (List.cons_ne_nil _ _), List.append_assoc, List.singleton_append]
    have kept : Text.joined ['/'] ((c :: name) :: after) ≠ [] := by
      cases after <;> simp [Text.joined]
    rw [offers, divided, Text.joined_prepend, cut, divided, List.getLast?_append, List.getLast?_append,
      List.getLast?_cons, List.getLast?_cons, List.getLast?_append_of_ne_nil _ kept]

theorem with_types_last (pattern : Text) : (withTypesPackage pattern).getLast? = pattern.getLast? := by
  rw [withTypesPackage, offer_types_last, Text.joined_pieces]

theorem last_segment_cut (path : Text) : ∃ front, Text.pieces '/' path = front ++ [lastSegment path] := by
  obtain ⟨front, last, cut⟩ := List.eq_nil_or_concat (Text.pieces '/' path)
    |>.resolve_left (Text.pieces_ne_nil '/' path)
  rw [List.concat_eq_append] at cut
  exact ⟨front, by rw [lastSegment, cut, List.getLastD_concat]⟩

theorem last_segment_divides (pattern : Text) :
    ∃ front, Text.BeforePiece '/' front ∧ pattern = front ++ lastSegment pattern := by
  obtain ⟨front, cut⟩ := last_segment_cut pattern
  refine ⟨Text.terminated '/' front, Text.before_piece_terminated '/' front, ?_⟩
  rw [← Text.joined_append_last, ← cut, Text.joined_pieces]

theorem last_segment_ends (pattern : Text) (c : Char) (last : (lastSegment pattern).getLast? = some c) :
    pattern.getLast? = some c := by
  obtain ⟨front, cut⟩ := last_segment_cut pattern
  rw [← Text.joined_pieces '/' pattern, cut, Text.joined_append_last, List.getLast?_append, last, Option.some_or]

theorem names_extension_slash (pattern : Text) : namesExtension (pattern ++ ['/']) = false := by
  rw [namesExtension, lastSegment, Text.pieces_append_last, List.getLastD_concat]
  decide +kernel

theorem slash_is_here (directory : Text) :
    (directory ++ ['/'] = ['.'] ∨ directory ++ ['/'] = ['.', '/']) ↔ directory = ['.'] := by
  constructor
  · rintro (short | here)
    · have last := congrArg List.getLast? short
      simp at last
    · exact List.append_cancel_right (here.trans (List.singleton_append (x := '.')).symm)
  · rintro rfl
    exact .inr rfl

theorem complete_slash (directory : Text) :
    complete (directory ++ ['/']) =
      if directory = ['.'] then "./".toList ++ recursiveFiles
      else withTypesPackage directory ++ '/' :: recursiveFiles := by
  have slash : Text.endsWith ['/'] (withTypesPackage directory ++ ['/']) = true := by
    rw [Text.ends_with_iff, List.getLast?_concat]
  simp only [complete, names_extension_slash, Bool.false_eq_true, if_false, with_types_slash, slash_is_here, slash,
    if_true, List.append_assoc, List.singleton_append]

theorem complete_named (directory : Text) (named : namesExtension directory = true) :
    complete directory = withTypesPackage directory := by
  simp only [complete, if_pos named]

theorem complete_unnamed (directory : Text) (plain : hasGlobChars directory = false)
    (last : directory.getLast? ≠ some '/') (unnamed : namesExtension directory = false) :
    complete directory = complete (directory ++ ['/']) := by
  have noSlash : Text.endsWith ['/'] (withTypesPackage directory) = false := by
    rw [← Bool.not_eq_true, Text.ends_with_iff, with_types_last]
    exact last
  have noStar : ¬ (directory = ['*'] ∨ directory = "*.*".toList) := by
    rintro (rfl | rfl) <;> exact absurd plain (by decide)
  have noHere : directory ≠ ['.', '/'] := by
    rintro rfl
    exact last rfl
  rw [complete_slash]
  simp only [complete, unnamed, Bool.false_eq_true, if_false, noHere, or_false, noSlash, noStar, plain]

-- What a pattern is completed to, and when.
inductive Completed (pattern : Text) : Text → Prop
  | named (extension : namesExtension pattern = true) : Completed pattern (withTypesPackage pattern)
  | slashed (directory : Text) (slash : pattern = directory ++ ['/']) :
      Completed pattern (withTypesPackage directory ++ '/' :: recursiveFiles)
  | plain (plain : hasGlobChars pattern = false) (last : pattern.getLast? ≠ some '/') :
      Completed pattern (withTypesPackage pattern ++ '/' :: recursiveFiles)
  | glob (special : hasGlobChars pattern = true) (last : pattern.getLast? ≠ some '/') :
      Completed pattern (withTypesPackage pattern ++ '.' :: extensionClass)
  | names (all : pattern = "*.*".toList) : Completed pattern (['*'] ++ '.' :: extensionClass)

theorem complete_directory (directory : Text) :
    complete (directory ++ ['/']) = withTypesPackage directory ++ '/' :: recursiveFiles := by
  rw [complete_slash]
  split
  · rename_i here
    rw [here]
    decide +kernel
  · rfl

theorem complete_glob (pattern : Text) (special : hasGlobChars pattern = true) (last : pattern.getLast? ≠ some '/')
    (unnamed : namesExtension pattern = false) (several : pattern ≠ "*.*".toList) :
    complete pattern = withTypesPackage pattern ++ '.' :: extensionClass := by
  have noHere : ¬ (pattern = ['.'] ∨ pattern = ['.', '/']) := by
    rintro (rfl | rfl) <;> exact absurd special (by decide)
  have noSlash : Text.endsWith ['/'] (withTypesPackage pattern) = false := by
    rw [← Bool.not_eq_true, Text.ends_with_iff, with_types_last]
    exact last
  by_cases star : pattern = ['*']
  · rw [star]
    decide +kernel
  · simp only [complete, unnamed, noHere, noSlash, star, several, special, Bool.false_eq_true, or_self, if_false, if_true]

theorem complete_completed (pattern : Text) : Completed pattern (complete pattern) := by
  cases named : namesExtension pattern with
  | true => exact complete_named pattern named ▸ .named named
  | false =>
      by_cases last : pattern.getLast? = some '/'
      · obtain ⟨directory, rfl⟩ := List.getLast?_eq_some_iff.mp last
        exact complete_directory directory ▸ .slashed directory rfl
      · cases special : hasGlobChars pattern with
        | false =>
            rw [complete_unnamed pattern special last named, complete_directory]
            exact .plain special last
        | true =>
            by_cases several : pattern = "*.*".toList
            · have same : complete "*.*".toList = ['*'] ++ '.' :: extensionClass := by decide +kernel
              rw [several, same]
              exact .names rfl
            · exact complete_glob pattern special last named several ▸ .glob special last

end FilePattern

end BlockSearch
