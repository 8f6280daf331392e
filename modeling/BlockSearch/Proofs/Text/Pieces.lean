import BlockSearch.Text.Basic
import Mathlib.Data.List.Induction

set_option autoImplicit false

namespace BlockSearch.Text

variable (separator : Char)

theorem pieces_eq_split_on (text : Text) : pieces separator text = text.splitOn separator := by
  induction text with
  | nil => rfl
  | cons c rest ih =>
      rw [List.splitOn_cons_eq_if_modifyHead, ← ih]
      simp only [pieces, piecesBy]
      split
      · rfl
      · have some := pieces_by_ne_nil (· == separator) rest
        cases cut : piecesBy (· == separator) rest with
        | nil => exact absurd cut some
        | cons piece others => rfl

theorem pieces_by_append (separates : Char → Bool) (c : Char) (ends : separates c = true) (front back : Text) :
    piecesBy separates (front ++ c :: back) = piecesBy separates front ++ piecesBy separates back := by
  induction front with
  | nil => simp [piecesBy, ends]
  | cons d rest ih =>
      by_cases separated : separates d = true
      · simp [piecesBy, separated, ih]
      · cases cut : piecesBy separates rest with
        | nil => exact absurd cut (pieces_by_ne_nil separates rest)
        | cons piece others => simp [piecesBy, separated, ih, cut]

theorem pieces_append (front back : Text) :
    pieces separator (front ++ separator :: back) = pieces separator front ++ pieces separator back :=
  pieces_by_append (· == separator) separator (beq_self_eq_true separator) front back

theorem joined_pieces (text : Text) : joined [separator] (pieces separator text) = text := by
  rw [pieces_eq_split_on, joined, List.intercalate_splitOn]

theorem pieces_ne_nil (text : Text) : pieces separator text ≠ [] := pieces_by_ne_nil _ text

theorem pieces_head (text : Text) :
    (pieces separator text).head? = some (text.takeWhile (· != separator)) := by
  induction text with
  | nil => rfl
  | cons c rest ih =>
      rw [pieces_eq_split_on, List.splitOn_cons_eq_if_modifyHead, ← pieces_eq_split_on]
      by_cases same : c = separator
      · simp [same]
      · cases cut : pieces separator rest with
        | nil => exact absurd cut (pieces_ne_nil separator rest)
        | cons first others =>
            rw [cut, List.head?_cons, Option.some.injEq] at ih
            simp [same, ih]

theorem pieces_length (text : Text) : (pieces separator text).length = text.count separator + 1 := by
  induction text with
  | nil => rfl
  | cons c rest ih =>
      by_cases same : c = separator
      · subst same
        rw [List.count_cons_self, ← ih]
        exact congrArg List.length (pieces_append c [] rest)
      · have kept : (pieces separator (c :: rest)).length = (pieces separator rest).length := by
          simp only [pieces_eq_split_on, List.splitOn_cons_eq_if_modifyHead, beq_iff_eq, if_neg same,
            List.length_modifyHead]
        rw [kept, ih, List.count_cons_of_ne same]

theorem piece_free (text piece : Text) (member : piece ∈ pieces separator text) : separator ∉ piece := by
  induction text generalizing piece with
  | nil => simp_all [pieces, piecesBy]
  | cons c rest ih =>
      rw [pieces_eq_split_on, List.splitOn_cons_eq_if_modifyHead, ← pieces_eq_split_on] at member
      split at member
      · rcases List.mem_cons.mp member with empty | later
        · simp [empty]
        · exact ih piece later
      · rename_i different
        cases cut : pieces separator rest with
        | nil => exact absurd cut (pieces_ne_nil separator rest)
        | cons first others =>
            rw [cut, List.modifyHead_cons] at member
            rcases List.mem_cons.mp member with head | later
            · have inner := ih first (by simp [cut])
              simp only [beq_iff_eq] at different
              simp [head, inner, Ne.symm different]
            · exact ih piece (by simp [cut, later])

def terminated (parts : List Text) : Text := parts.flatMap fun part => part ++ [separator]

theorem terminated_divided (parts : List Text) (first last : Nat) (ordered : first ≤ last) :
    terminated separator (parts.take first) ++ terminated separator ((parts.take last).drop first) =
      terminated separator (parts.take last) := by
  have fronts : parts.take first = (parts.take last).take first := by rw [List.take_take, Nat.min_eq_left ordered]
  rw [fronts, terminated, terminated, ← List.flatMap_append, List.take_append_drop, ← terminated]

theorem joined_append (parts others : List Text) (some : others ≠ []) :
    joined [separator] (parts ++ others) = terminated separator parts ++ joined [separator] others := by
  induction parts with
  | nil => rfl
  | cons part parts ih =>
      have behind : parts ++ others ≠ [] := by simp [some]
      rw [List.cons_append, joined, List.intercalate_cons_of_ne_nil behind, ← joined, ih]
      simp [terminated]

theorem joined_append_last (parts : List Text) (last : Text) :
    joined [separator] (parts ++ [last]) = terminated separator parts ++ last := by
  rw [joined_append separator parts [last] (List.cons_ne_nil _ _), joined, List.intercalate_singleton]

theorem joined_cons (part : Text) (others : List Text) (some : others ≠ []) :
    joined [separator] (part :: others) = part ++ separator :: joined [separator] others := by
  rw [joined, List.intercalate_cons_of_ne_nil some, List.append_assoc, List.singleton_append, joined]

theorem joined_leads (part : Text) (others : List Text) :
    ∃ tail, joined [separator] (part :: others) = part ++ tail ∧ (tail.head? = none ∨ tail.head? = some separator) := by
  cases others with
  | nil => exact ⟨[], by simp [joined], .inl rfl⟩
  | cons next others => exact ⟨_, joined_cons separator part _ (List.cons_ne_nil _ _), .inr rfl⟩

theorem mem_joined (between : Text) (c : Char) (parts : List Text) (member : c ∈ joined between parts) :
    c ∈ between ∨ ∃ part ∈ parts, c ∈ part := by
  induction parts with
  | nil => exact absurd member List.not_mem_nil
  | cons part parts ih =>
      cases parts with
      | nil => exact .inr ⟨part, List.mem_cons_self, by simpa [joined] using member⟩
      | cons next parts =>
          rw [joined, List.intercalate_cons_cons, List.mem_append, List.mem_append] at member
          rcases member with (here | inside) | behind
          · exact .inr ⟨part, List.mem_cons_self, here⟩
          · exact .inl inside
          · rcases ih behind with inside | ⟨other, present, inside⟩
            · exact .inl inside
            · exact .inr ⟨other, List.mem_cons_of_mem _ present, inside⟩

theorem mem_of_piece (c : Char) (text piece : Text) (present : piece ∈ pieces separator text)
    (inside : c ∈ piece) : c ∈ text := by
  obtain ⟨front, back, cut⟩ := List.append_of_mem present
  rw [← joined_pieces separator text, cut, joined_append separator front _ (List.cons_ne_nil _ _)]
  apply List.mem_append_right
  cases back with
  | nil => simpa [joined] using inside
  | cons next others => simp [joined, inside]

theorem joined_divided (front back : List Text) (someFront : front ≠ []) (someBack : back ≠ []) :
    joined [separator] (front ++ back) = joined [separator] front ++ separator :: joined [separator] back := by
  obtain ⟨others, last, rfl⟩ := List.eq_nil_or_concat front |>.resolve_left someFront
  rw [List.concat_eq_append, joined_append separator _ back someBack, joined_append_last]
  simp [terminated]

theorem pieces_by_joined (separates : Char → Bool) (c : Char) (ends : separates c = true) (parts : List Text)
    (some : parts ≠ []) : piecesBy separates (joined [c] parts) = parts.flatMap (piecesBy separates) := by
  induction parts with
  | nil => exact absurd rfl some
  | cons part parts ih =>
      by_cases none : parts = []
      · simp [none, joined]
      · rw [joined_cons c part parts none, pieces_by_append separates c ends, ih none, List.flatMap_cons]

theorem pieces_joined (parts : List Text) (free : ∀ part ∈ parts, separator ∉ part) (some : parts ≠ []) :
    pieces separator (joined [separator] parts) = parts := by
  rw [pieces_eq_split_on, joined]
  exact List.splitOn_intercalate separator free some

theorem pieces_single_iff (text piece : Text) : pieces separator text = [piece] ↔ text = piece ∧ separator ∉ piece := by
  constructor
  · intro whole
    refine ⟨?_, piece_free separator text piece (by simp [whole])⟩
    rw [← joined_pieces separator text, whole, joined, List.intercalate_singleton]
  · rintro ⟨rfl, free⟩
    have single := pieces_joined separator [text] (by simpa using free) (by simp)
    rwa [joined, List.intercalate_singleton] at single

theorem pieces_behind (text : Text) (front back : List Text) (some : back ≠ [])
    (cut : pieces separator text = front ++ back) : ∃ rest, pieces separator rest = back :=
  ⟨joined [separator] back, pieces_joined separator back (fun part member =>
    piece_free separator text part (cut ▸ List.mem_append_right front member)) some⟩

theorem pieces_divided (text : Text) (front back : List Text) (someFront : front ≠ []) (someBack : back ≠ [])
    (cut : pieces separator text = front ++ back) :
    ∃ a b, text = a ++ separator :: b ∧ pieces separator a = front ∧ pieces separator b = back := by
  have free : ∀ part ∈ front ++ back, separator ∉ part := fun part member =>
    piece_free separator text part (cut ▸ member)
  refine ⟨joined [separator] front, joined [separator] back, ?_, ?_, ?_⟩
  · rw [← joined_divided separator front back someFront someBack, ← cut, joined_pieces]
  · exact pieces_joined separator front (fun part member => free part (List.mem_append_left _ member)) someFront
  · exact pieces_joined separator back (fun part member => free part (List.mem_append_right _ member)) someBack

theorem pieces_extended (text more : Text) (free : separator ∉ more) :
    ∃ front last, pieces separator text = front ++ [last] ∧
      pieces separator (text ++ more) = front ++ [last ++ more] := by
  obtain ⟨front, last, cut⟩ := List.eq_nil_or_concat (pieces separator text) |>.resolve_left (pieces_ne_nil _ text)
  rw [List.concat_eq_append] at cut
  have inside : ∀ part ∈ front ++ [last ++ more], separator ∉ part := by
    intro part member
    rcases List.mem_append.mp member with before | here
    · exact piece_free separator text part (by simp [cut, before])
    · rw [List.mem_singleton.mp here, List.mem_append, not_or]
      exact ⟨piece_free separator text last (by simp [cut]), free⟩
  refine ⟨front, last, cut, ?_⟩
  rw [← pieces_joined separator _ inside (by simp), joined_append_last, ← List.append_assoc, ← joined_append_last, ← cut,
    joined_pieces]

theorem pieces_terminated_append (parts : List Text) (free : ∀ part ∈ parts, separator ∉ part) (rest : Text) :
    pieces separator (terminated separator parts ++ rest) = parts ++ pieces separator rest := by
  induction parts with
  | nil => rfl
  | cons part parts ih =>
      have single := (pieces_single_iff separator part part).mpr ⟨rfl, free part List.mem_cons_self⟩
      have behind := ih fun other member => free other (List.mem_cons_of_mem _ member)
      have cut : terminated separator (part :: parts) ++ rest =
          part ++ separator :: (terminated separator parts ++ rest) := by
        simp [terminated]
      rw [cut, pieces_append, single, behind, List.singleton_append, List.cons_append]

theorem pieces_terminated (parts : List Text) (free : ∀ part ∈ parts, separator ∉ part) :
    pieces separator (terminated separator parts) = parts ++ [[]] := by
  have whole := pieces_terminated_append separator parts free []
  rwa [List.append_nil] at whole

-- A front of a text is as many of its pieces as separators stand there, and the beginning of the next one.
theorem front_divides (front rest : Text) :
    ∃ last, separator ∉ last ∧
      front = terminated separator ((pieces separator (front ++ rest)).take (front.count separator)) ++ last := by
  obtain ⟨parts, last, cut⟩ := List.eq_nil_or_concat (pieces separator front) |>.resolve_left (pieces_ne_nil _ front)
  rw [List.concat_eq_append] at cut
  have free : ∀ part ∈ parts ++ [last], separator ∉ part := fun part member =>
    piece_free separator front part (cut ▸ member)
  have whole : front = terminated separator parts ++ last := by
    rw [← joined_append_last, ← cut, joined_pieces]
  have count : front.count separator = parts.length := by
    have lengths := pieces_length separator front
    rw [cut, List.length_append, List.length_singleton] at lengths
    exact (Nat.succ.inj lengths).symm
  refine ⟨last, free last (by simp), ?_⟩
  have inside : pieces separator (front ++ rest) = parts ++ pieces separator (last ++ rest) := by
    rw [whole, List.append_assoc]
    exact pieces_terminated_append separator parts (fun part member => free part (List.mem_append_left _ member)) _
  rw [count, inside, List.take_left]
  exact whole

theorem count_terminated (parts : List Text) (free : ∀ part ∈ parts, separator ∉ part) :
    (terminated separator parts).count separator = parts.length := by
  induction parts with
  | nil => rfl
  | cons part parts ih =>
      have none : part.count separator = 0 := List.count_eq_zero.mpr (free part List.mem_cons_self)
      have rest := ih fun other member => free other (List.mem_cons_of_mem _ member)
      simp only [terminated, List.flatMap_cons, List.count_append, List.count_singleton_self, none] at rest ⊢
      rw [rest, List.length_cons]
      omega

def BeforePiece (text : Text) : Prop := ∀ c ∈ text.getLast?, c = separator

def AfterPiece (text : Text) : Prop := ∀ c ∈ text.head?, c = separator

theorem before_piece_terminated (parts : List Text) : BeforePiece separator (terminated separator parts) := by
  intro c last
  cases parts using List.reverseRecOn with
  | nil => simp [terminated] at last
  | append_singleton parts part => simpa [terminated, eq_comm] using last

theorem before_piece_divides (front rest : Text) (begins : BeforePiece separator front) :
    front = terminated separator ((pieces separator (front ++ rest)).take (front.count separator)) := by
  obtain ⟨last, free, whole⟩ := front_divides separator front rest
  cases last using List.reverseRecOn with
  | nil => rwa [List.append_nil] at whole
  | append_singleton last c =>
      have same : c = separator := by
        apply begins
        rw [whole, ← List.append_assoc, List.getLast?_concat, Option.mem_def]
      exact absurd (by simp [same]) free

-- Of two fronts of one text, the one that ends with its piece and has no more separators is the shorter one.
theorem before_piece_prefix (text a b : Text) (first : a <+: text) (second : b <+: text)
    (begins : BeforePiece separator a) (fewer : a.count separator ≤ b.count separator) : a <+: b := by
  rcases List.prefix_or_prefix_of_prefix first second with shorter | longer
  · exact shorter
  · obtain ⟨more, rfl⟩ := longer
    cases more using List.reverseRecOn with
    | nil => simp
    | append_singleton more c =>
        have last : c = separator := begins c (by simp)
        simp only [List.count_append, last, List.count_singleton_self] at fewer
        omega

theorem after_piece_prefix (a b behind : Text) (second : b <+: a ++ behind)
    (ends : AfterPiece separator behind) (more : b.count separator ≤ a.count separator) : b <+: a := by
  rcases List.prefix_or_prefix_of_prefix second (List.prefix_append a behind) with shorter | longer
  · exact shorter
  · obtain ⟨rest, rfl⟩ := longer
    cases rest with
    | nil => simp
    | cons c rest =>
        obtain ⟨left, whole⟩ := second
        have next : behind = c :: (rest ++ left) := by simpa [List.append_assoc] using whole.symm
        have first : c = separator := ends c (by simp [next])
        simp only [List.count_append, first, List.count_cons_self] at more
        omega

-- The pieces from one number to another, of which the last may be shown in part only.
theorem slice_divides (text shown hidden : Text) (first last : Nat) (ordered : first ≤ last)
    (found : (pieces separator text)[last]? = some (shown ++ hidden)) :
    ∃ behind, AfterPiece separator behind ∧
      text = terminated separator ((pieces separator text).take first)
        ++ (terminated separator (((pieces separator text).take last).drop first) ++ shown)
        ++ (hidden ++ behind) := by
  generalize parts : pieces separator text = all at found ⊢
  obtain ⟨within, same⟩ := List.getElem?_eq_some_iff.mp found
  have whole : all = all.take last ++ (shown ++ hidden) :: all.drop (last + 1) := by
    rw [← same, List.getElem_cons_drop, List.take_append_drop]
  have cut : text = terminated separator (all.take last)
      ++ joined [separator] ((shown ++ hidden) :: all.drop (last + 1)) := by
    rw [← joined_append separator _ _ (List.cons_ne_nil _ _), ← whole, ← parts, joined_pieces]
  have front := (terminated_divided separator all first last ordered).symm
  cases below : all.drop (last + 1) with
  | nil =>
      refine ⟨[], by simp [AfterPiece], ?_⟩
      rw [cut, front, below]
      simp [joined]
  | cons next others =>
      refine ⟨separator :: joined [separator] (next :: others), by simp [AfterPiece], ?_⟩
      rw [cut, front, below]
      simp [joined]

end BlockSearch.Text
