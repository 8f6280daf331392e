import BlockSearch.Proofs.Block.Growth
import Mathlib.Data.List.TakeWhile
import Mathlib.Order.Bounds.Basic

set_option autoImplicit false

namespace BlockSearch

namespace Text

def lineOffset (lines : List Text) (number : Nat) : Nat := size (terminated '\n' (lines.take number))

def linesBefore : Nat → List Text → Nat
  | _, [] => 0
  | offset, line :: below => if offset = 0 then 0 else linesBefore (offset - (size line + 1)) below + 1

theorem line_offset_succ (line : Text) (below : List Text) (number : Nat) :
    lineOffset (line :: below) (number + 1) = size line + 1 + lineOffset below number := by
  rw [lineOffset, List.take_succ_cons, terminated, List.flatMap_cons, size_append, size_append]
  rfl

theorem lines_before_le_iff (offset : Nat) (lines : List Text) (number : Nat) (inside : number < lines.length) :
    linesBefore offset lines ≤ number ↔ offset ≤ lineOffset lines number := by
  induction lines generalizing offset number with
  | nil => exact absurd inside (Nat.not_lt_zero number)
  | cons line below ih =>
      by_cases zero : offset = 0
      · simp [linesBefore, zero]
      · rw [linesBefore, if_neg zero]
        cases number with
        | zero => simpa [lineOffset, terminated, size] using zero
        | succ number =>
            have further := ih (offset - (size line + 1)) number (Nat.lt_of_succ_lt_succ inside)
            rw [Nat.add_le_add_iff_right, further, line_offset_succ]
            omega

theorem front_unique (a b more others : Text) (whole : a ++ more = b ++ others) (same : size a = size b) : a = b := by
  rcases List.append_eq_append_iff.mp whole with ⟨rest, rfl, -⟩ | ⟨rest, rfl, -⟩
  all_goals
    cases rest with
    | nil => simp
    | cons c rest =>
        have wide := Char.utf8Size_pos c
        rw [size_append, size_cons] at same
        omega

end Text

namespace Block

open BlockSearch.Symbol (Occurrence)

def IsBlank (line : Text) : Prop := ∀ c ∈ line, CharClass.isBlank c = true

def IsDeeper (indentation line : Text) : Prop :=
  ¬ IsBlank line ∧ ∃ c rest, line = indentation ++ c :: rest ∧ (c = ' ' ∨ c = '\t')

-- The line that opens the block, if the symbol ends on this line and so much stands behind it there.
def OpensAt (lines : List Text) (last : Nat) (behind : Text) (opening : Nat) : Prop :=
  if '{' ∈ behind then opening = last
  else opening = last + 1 ∧ ∃ blanks below, lines[last + 1]? = some (blanks ++ '{' :: below) ∧ IsBlank blanks

def bodyEnds (lines : List Text) (indentation : Text) (opening : Nat) : Set Nat :=
  {last | opening ≤ last ∧
    (∀ number, opening < number → number ≤ last →
      ∃ line, lines[number]? = some line ∧ (IsBlank line ∨ IsDeeper indentation line)) ∧
    (last = opening ∨ ∃ line, lines[last]? = some line ∧ IsDeeper indentation line)}

-- The first line behind the body that is not blank, if it has just this indentation and a closing brace behind it.
def ClosesAt (lines : List Text) (indentation : Text) (last closing : Nat) : Prop :=
  last < closing ∧
    (∀ number, last < number → number < closing → ∃ line, lines[number]? = some line ∧ IsBlank line) ∧
    ∃ rest, lines[closing]? = some (indentation ++ '}' :: rest)

-- The lines from which on there are only comments down to the heading, none of which begins before the floor.
def commentStarts (lines : List Text) (floor heading : Nat) : Set Nat :=
  {first | first ≤ heading ∧
    ∀ number, first ≤ number → number < heading →
      floor ≤ Text.lineOffset lines number ∧ ∃ line, lines[number]? = some line ∧ isCommentLine line = true}

section Opening

theorem opens_brace_iff (line : Text) :
    opensBrace line = true ↔ ∃ blanks below, line = blanks ++ '{' :: below ∧ IsBlank blanks := by
  rw [opensBrace, beq_iff_eq, Text.trimStart]
  constructor
  · intro brace
    obtain ⟨below, rest⟩ := List.head?_eq_some_iff.mp brace
    refine ⟨line.takeWhile CharClass.isBlank, below, ?_, fun c member => List.mem_takeWhile_imp member⟩
    rw [← rest, List.takeWhile_append_dropWhile]
  · rintro ⟨blanks, below, rfl, blank⟩
    have brace : CharClass.isBlank '{' = false := by decide
    simp [List.dropWhile_append_of_pos blank, brace]

theorem opens_at_iff (lines : List Text) (occurrence : Occurrence) (opening : Nat) :
    openingLine lines occurrence = some opening ↔
      OpensAt lines (headingLast occurrence) (headingRest occurrence) opening := by
  unfold openingLine OpensAt
  by_cases brace : '{' ∈ headingRest occurrence
  · simp [brace, eq_comm]
  · rw [if_neg (by simpa using brace), if_neg brace]
    cases next : lines[headingLast occurrence + 1]? with
    | none => simp
    | some line =>
        simp only [Option.some.injEq, Option.ite_none_right_eq_some, opens_brace_iff]
        constructor
        · rintro ⟨⟨blanks, below, same, blank⟩, reached⟩
          exact ⟨reached.symm, blanks, below, same, blank⟩
        · rintro ⟨reached, blanks, below, same, blank⟩
          exact ⟨⟨blanks, below, same, blank⟩, reached.symm⟩

end Opening

section Body

variable (indentation : Text)

theorem is_blank_iff (line : Text) : Text.isBlankLine line = true ↔ IsBlank line := List.all_eq_true

theorem is_deeper_iff (line : Text) :
    isDeeper indentation line = true ↔ ∃ c rest, line = indentation ++ c :: rest ∧ (c = ' ' ∨ c = '\t') := by
  constructor
  · intro deeper
    unfold isDeeper at deeper
    split at deeper
    · rename_i c rest lead
      refine ⟨c, rest, Text.after_lead_eq _ _ _ lead, ?_⟩
      simpa [CharClass.isIndent] using deeper
    · exact absurd deeper Bool.false_ne_true
  · rintro ⟨c, rest, rfl, indent⟩
    rw [isDeeper, Text.after_lead_append]
    simpa [CharClass.isIndent] using indent

def BodyOf (lines : List Text) (length : Nat) : Prop :=
  (∀ i < length, ∃ line, lines[i]? = some line ∧ (IsBlank line ∨ IsDeeper indentation line)) ∧
    ∀ i, length = i + 1 → ∃ line, lines[i]? = some line ∧ IsDeeper indentation line

theorem body_of_nothing (lines : List Text) : BodyOf indentation lines 0 :=
  ⟨fun i less => absurd less (Nat.not_lt_zero i), fun i none => absurd none (Nat.succ_ne_zero i).symm⟩

theorem body_of_cons_iff (line : Text) (below : List Text) (length : Nat) :
    BodyOf indentation (line :: below) (length + 1) ↔
      (IsBlank line ∨ IsDeeper indentation line) ∧ BodyOf indentation below length ∧
        (length = 0 → IsDeeper indentation line) := by
  constructor
  · rintro ⟨all, last⟩
    obtain ⟨first, here, passes⟩ := all 0 (Nat.succ_pos length)
    refine ⟨Option.some.inj here ▸ passes, ⟨fun i less => all (i + 1) (Nat.succ_lt_succ less), ?_⟩, ?_⟩
    · rintro i rfl
      exact last (i + 1) rfl
    · rintro rfl
      obtain ⟨only, here, deeper⟩ := last 0 rfl
      exact Option.some.inj here ▸ deeper
  · rintro ⟨passes, ⟨all, last⟩, single⟩
    constructor
    · rintro (_ | i) less
      · exact ⟨line, rfl, passes⟩
      · exact all i (Nat.lt_of_succ_lt_succ less)
    · rintro (_ | i) reached
      · exact ⟨line, rfl, single (Nat.succ.inj reached)⟩
      · exact last i (Nat.succ.inj reached)

theorem body_length_greatest (lines : List Text) :
    IsGreatest {length | BodyOf indentation lines length} (bodyLength indentation lines) := by
  induction lines with
  | nil =>
      refine ⟨body_of_nothing indentation [], fun length body => ?_⟩
      by_contra some
      obtain ⟨line, found, -⟩ := body.1 0 (Nat.lt_of_not_le some)
      simp at found
  | cons line below ih =>
      obtain ⟨inside, bound⟩ := ih
      -- A body that begins here goes on with one of the lines below.
      have further (length : Nat) (body : BodyOf indentation (line :: below) (length + 1)) :
          length ≤ bodyLength indentation below :=
        bound ((body_of_cons_iff indentation line below length).mp body).2.1
      by_cases blank : IsBlank line
      · rw [bodyLength, if_pos ((is_blank_iff line).mpr blank)]
        cases behind : bodyLength indentation below with
        | zero =>
            refine ⟨body_of_nothing indentation _, ?_⟩
            rintro (_ | length) body
            · exact Nat.le_refl 0
            · have none : length = 0 := Nat.le_zero.mp (behind ▸ further length body)
              have deeper := ((body_of_cons_iff indentation line below length).mp body).2.2 none
              exact absurd blank deeper.1
        | succ count =>
            rw [behind] at inside
            refine ⟨(body_of_cons_iff indentation line below _).mpr
              ⟨.inl blank, inside, fun none => absurd none (Nat.succ_ne_zero count)⟩, ?_⟩
            rintro (_ | length) body
            · exact Nat.zero_le _
            · exact Nat.succ_le_succ (behind ▸ further length body)
      · rw [bodyLength, if_neg fun given => blank ((is_blank_iff line).mp given)]
        by_cases deeper : isDeeper indentation line = true
        · have isDeeper : IsDeeper indentation line := ⟨blank, (is_deeper_iff indentation line).mp deeper⟩
          rw [if_pos deeper]
          refine ⟨(body_of_cons_iff indentation line below _).mpr ⟨.inr isDeeper, inside, fun _ => isDeeper⟩, ?_⟩
          rintro (_ | length) body
          · exact Nat.zero_le _
          · exact Nat.succ_le_succ (further length body)
        · rw [if_neg deeper]
          refine ⟨body_of_nothing indentation _, ?_⟩
          rintro (_ | length) body
          · exact Nat.le_refl 0
          · rcases ((body_of_cons_iff indentation line below length).mp body).1 with given | given
            · exact absurd given blank
            · exact absurd ((is_deeper_iff indentation line).mpr given.2) deeper

theorem body_ends_iff (lines : List Text) (opening length : Nat) :
    opening + length ∈ bodyEnds lines indentation opening ↔
      BodyOf indentation (lines.drop (opening + 1)) length := by
  simp only [bodyEnds, BodyOf, Set.mem_ofPred_eq, List.getElem?_drop]
  constructor
  · rintro ⟨-, all, last⟩
    refine ⟨fun i less => all (opening + 1 + i) (by omega) (by omega), ?_⟩
    rintro i rfl
    have reached : opening + (i + 1) = opening + 1 + i := by omega
    exact reached ▸ last.resolve_left (by omega)
  · rintro ⟨all, last⟩
    refine ⟨Nat.le_add_right _ _, fun number below upto => ?_, ?_⟩
    · have reached : opening + 1 + (number - (opening + 1)) = number := by omega
      exact reached ▸ all (number - (opening + 1)) (by omega)
    · cases length with
      | zero => exact .inl rfl
      | succ i =>
          have reached : opening + 1 + i = opening + (i + 1) := by omega
          exact .inr (reached ▸ last i rfl)

theorem body_ends_greatest (lines : List Text) (opening : Nat) :
    IsGreatest (bodyEnds lines indentation opening)
      (opening + bodyLength indentation (lines.drop (opening + 1))) := by
  obtain ⟨inside, bound⟩ := body_length_greatest indentation (lines.drop (opening + 1))
  refine ⟨(body_ends_iff indentation lines opening _).mpr inside, fun last ends => ?_⟩
  obtain ⟨length, rfl⟩ := Nat.exists_eq_add_of_le ends.1
  exact Nat.add_le_add_left (bound ((body_ends_iff indentation lines opening length).mp ends)) opening

end Body

section Closing

theorem closes_iff (indentation line : Text) (indents : ∀ c ∈ indentation, CharClass.isIndent c = true) :
    closes indentation line = true ↔ ∃ rest, line = indentation ++ '}' :: rest := by
  refine ⟨closes_eq indentation line, ?_⟩
  rintro ⟨rest, rfl⟩
  have stops : CharClass.isIndent '}' = false := by decide
  have same : Text.indentation (indentation ++ '}' :: rest) = indentation := by
    rw [Text.indentation, List.takeWhile_append_of_pos indents]
    simp [stops]
  rw [closes, same]
  simp

theorem brace_not_blank (indentation rest : Text) : ¬ IsBlank (indentation ++ '}' :: rest) := by
  intro blank
  have brace := blank '}' (by simp)
  exact absurd brace (by decide)

theorem blanks_to_closing_iff (indentation : Text) (indents : ∀ c ∈ indentation, CharClass.isIndent c = true)
    (lines : List Text) (blanks : Nat) :
    blanksToClosing indentation lines = some blanks ↔
      (∀ i < blanks, ∃ line, lines[i]? = some line ∧ IsBlank line) ∧
        ∃ rest, lines[blanks]? = some (indentation ++ '}' :: rest) := by
  induction lines generalizing blanks with
  | nil => simp [blanksToClosing]
  | cons line below ih =>
      -- Only a blank line leads to a closing one below it.
      have later (fewer : Nat) :
          ((∀ i < fewer + 1, ∃ other, (line :: below)[i]? = some other ∧ IsBlank other) ∧
              ∃ rest, (line :: below)[fewer + 1]? = some (indentation ++ '}' :: rest)) ↔
            IsBlank line ∧ blanksToClosing indentation below = some fewer := by
        rw [ih fewer]
        constructor
        · rintro ⟨all, closing⟩
          obtain ⟨other, here, blank⟩ := all 0 (Nat.succ_pos fewer)
          exact ⟨Option.some.inj here ▸ blank, fun i less => all (i + 1) (Nat.succ_lt_succ less), closing⟩
        · rintro ⟨blank, all, closing⟩
          refine ⟨?_, closing⟩
          rintro (_ | i) less
          · exact ⟨line, rfl, blank⟩
          · exact all i (Nat.lt_of_succ_lt_succ less)
      have here : ((∀ i < 0, ∃ other, (line :: below)[i]? = some other ∧ IsBlank other) ∧
          ∃ rest, (line :: below)[0]? = some (indentation ++ '}' :: rest)) ↔ closes indentation line = true := by
        simp [closes_iff indentation line indents]
      rw [blanksToClosing]
      by_cases blank : IsBlank line
      · rw [if_pos ((is_blank_iff line).mpr blank)]
        cases blanks with
        | zero =>
            rw [here, closes_iff indentation line indents]
            constructor
            · intro found
              simp at found
            · rintro ⟨rest, rfl⟩
              exact absurd blank (brace_not_blank indentation rest)
        | succ fewer => rw [later fewer]; simp [blank]
      · rw [if_neg fun given => blank ((is_blank_iff line).mp given)]
        cases blanks with
        | zero => rw [here]; simp
        | succ fewer => rw [later fewer]; simp [blank]

theorem closes_at_iff (lines : List Text) (indentation : Text)
    (indents : ∀ c ∈ indentation, CharClass.isIndent c = true) (last closing : Nat) :
    ClosesAt lines indentation last closing ↔
      ∃ blanks, closing = last + blanks + 1 ∧ blanksToClosing indentation (lines.drop (last + 1)) = some blanks := by
  simp only [blanks_to_closing_iff indentation indents, List.getElem?_drop]
  constructor
  · rintro ⟨behind, all, rest, brace⟩
    obtain ⟨blanks, rfl⟩ := Nat.exists_eq_add_of_lt behind
    refine ⟨blanks, rfl, fun i less => all (last + 1 + i) (by omega) (by omega), rest, ?_⟩
    rw [← brace]
    congr 1
    omega
  · rintro ⟨blanks, rfl, all, rest, brace⟩
    refine ⟨by omega, fun number below upto => ?_, rest, ?_⟩
    · have reached : last + 1 + (number - (last + 1)) = number := by omega
      exact reached ▸ all (number - (last + 1)) (by omega)
    · rw [← brace]
      congr 1
      omega

end Closing

section Comments

theorem take_while_greatest {α : Type} (p : α → Bool) (items : List α) :
    IsGreatest {count | ∀ i < count, ∃ item, items[i]? = some item ∧ p item = true} (items.takeWhile p).length := by
  induction items with
  | nil =>
      refine ⟨fun i less => absurd less (Nat.not_lt_zero i), fun count all => ?_⟩
      by_contra some
      obtain ⟨item, found, -⟩ := all 0 (Nat.lt_of_not_le some)
      simp at found
  | cons item items ih =>
      by_cases passes : p item = true
      · rw [List.takeWhile_cons_of_pos passes, List.length_cons]
        constructor
        · rintro (_ | i) less
          · exact ⟨item, rfl, passes⟩
          · exact ih.1 i (Nat.lt_of_succ_lt_succ less)
        · rintro (_ | count) all
          · exact Nat.zero_le _
          · exact Nat.succ_le_succ (ih.2 fun i less => all (i + 1) (Nat.succ_lt_succ less))
      · rw [List.takeWhile_cons_of_neg passes]
        refine ⟨fun i less => absurd less (Nat.not_lt_zero i), fun count all => ?_⟩
        by_contra some
        obtain ⟨other, found, stays⟩ := all 0 (Nat.lt_of_not_le some)
        exact passes (Option.some.inj found ▸ stays)

variable (lines : List Text) (floor heading : Nat)

theorem line_above (above : Nat) (within : heading ≤ lines.length) (i : Nat) (less : i < heading - above) :
    ((lines.take heading).drop above).reverse[i]? = lines[heading - 1 - i]? := by
  have long : ((lines.take heading).drop above).length = heading - above := by
    rw [List.length_drop, List.length_take, Nat.min_eq_left within]
  rw [List.getElem?_reverse (long ▸ less), long, List.getElem?_drop, List.getElem?_take_of_lt (by omega)]
  congr 1
  omega

theorem comment_starts_least (within : heading < lines.length) :
    IsLeast (commentStarts lines floor heading)
      (heading - commentsAbove lines (Text.linesBefore floor lines) heading) := by
  have bound := comments_above_le lines (Text.linesBefore floor lines) heading
  obtain ⟨all, greatest⟩ := take_while_greatest isCommentLine
    ((lines.take heading).drop (Text.linesBefore floor lines)).reverse
  rw [← commentsAbove] at all greatest
  constructor
  · refine ⟨Nat.sub_le _ _, fun number above below => ?_⟩
    have less : heading - 1 - number < commentsAbove lines (Text.linesBefore floor lines) heading := by omega
    obtain ⟨line, found, comment⟩ := all (heading - 1 - number) less
    rw [line_above lines heading _ (Nat.le_of_lt within) _ (by omega)] at found
    have same : heading - 1 - (heading - 1 - number) = number := by omega
    rw [same] at found
    exact ⟨(Text.lines_before_le_iff floor lines number (by omega)).mp (by omega), line, found, comment⟩
  · rintro first ⟨upto, comments⟩
    have counted : heading - first ≤ commentsAbove lines (Text.linesBefore floor lines) heading := by
      refine greatest fun i less => ?_
      obtain ⟨behind, line, found, comment⟩ := comments (heading - 1 - i) (by omega) (by omega)
      have above := (Text.lines_before_le_iff floor lines (heading - 1 - i) (by omega)).mpr behind
      refine ⟨line, ?_, comment⟩
      rw [line_above lines heading _ (Nat.le_of_lt within) _ (by omega), found]
    omega

end Comments

def headingIndentation (content before : Text) : Text :=
  Text.indentation ((Text.pieces '\n' content).getD (before.count '\n') [])

-- An extent of lines that opens on one line, has its body down to another, and ends before a byte of the content.
structure Extent.Described (content before : Text) (occurrence : Occurrence) (floor opening body stop : Nat)
    (extent : Extent) : Prop where
  opens : OpensAt (Text.pieces '\n' content) ((before ++ occurrence.symbol).count '\n')
    (occurrence.rest.takeWhile (· != '\n')) opening
  longest : IsGreatest (bodyEnds (Text.pieces '\n' content) (headingIndentation content before) opening) body
  first : IsLeast (commentStarts (Text.pieces '\n' content) floor (before.count '\n')) extent.first
  last : ClosesAt (Text.pieces '\n' content) (headingIndentation content before) body extent.last ∧
      stop = Text.lineOffset (Text.pieces '\n' content) extent.last +
        Text.size (headingIndentation content before ++ ['}']) ∨
    (∀ closing, ¬ ClosesAt (Text.pieces '\n' content) (headingIndentation content before) body closing) ∧
      extent.last = body ∧
      stop = Text.lineOffset (Text.pieces '\n' content) body + Text.size ((Text.pieces '\n' content).getD body [])
  text : ∃ above behind, content = above ++ (extent.text ++ behind) ∧
    Text.size above = Text.lineOffset (Text.pieces '\n' content) extent.first ∧
    Text.size (above ++ extent.text) = stop

theorem heading_indents (content before : Text) :
    ∀ c ∈ headingIndentation content before, CharClass.isIndent c = true :=
  fun _ member => List.mem_takeWhile_imp member

theorem text_divides (content text shown hidden : Text) (first last : Nat) (ordered : first ≤ last)
    (found : (Text.pieces '\n' content)[last]? = some (shown ++ hidden))
    (made : text = Text.terminated '\n' (((Text.pieces '\n' content).take last).drop first) ++ shown) :
    ∃ above behind, content = above ++ (text ++ behind) ∧
      Text.size above = Text.lineOffset (Text.pieces '\n' content) first ∧
      Text.size (above ++ text) = Text.lineOffset (Text.pieces '\n' content) last + Text.size shown := by
  obtain ⟨behind, -, whole⟩ := Text.slice_divides '\n' content shown hidden first last ordered found
  refine ⟨Text.terminated '\n' ((Text.pieces '\n' content).take first), hidden ++ behind, ?_, rfl, ?_⟩
  · rw [made]
    simpa only [List.append_assoc] using whole
  · rw [made, ← List.append_assoc, Text.terminated_divided '\n' _ _ _ ordered, Text.size_append]
    rfl

theorem opens_at_unique (lines : List Text) (last : Nat) (behind : Text) (a b : Nat)
    (first : OpensAt lines last behind a) (second : OpensAt lines last behind b) : a = b := by
  unfold OpensAt at first second
  split at first
  · rename_i brace
    rw [if_pos brace] at second
    exact first.trans second.symm
  · rename_i brace
    rw [if_neg brace] at second
    exact first.1.trans second.1.symm

theorem closes_at_unique (lines : List Text) (indentation : Text)
    (indents : ∀ c ∈ indentation, CharClass.isIndent c = true) (last a b : Nat)
    (first : ClosesAt lines indentation last a) (second : ClosesAt lines indentation last b) : a = b := by
  obtain ⟨blanks, rfl, found⟩ := (closes_at_iff lines indentation indents last a).mp first
  obtain ⟨others, rfl, again⟩ := (closes_at_iff lines indentation indents last b).mp second
  rw [found, Option.some.injEq] at again
  rw [again]

theorem Extent.Described.unique {content before : Text} {occurrence : Occurrence} {floor : Nat}
    {opening body stop opening' body' stop' : Nat} {a b : Extent}
    (first : a.Described content before occurrence floor opening body stop)
    (second : b.Described content before occurrence floor opening' body' stop') : a = b := by
  obtain rfl := opens_at_unique _ _ _ _ _ first.opens second.opens
  obtain rfl := first.longest.unique second.longest
  have begins := first.first.unique second.first
  have ends : a.last = b.last ∧ stop = stop' := by
    rcases first.last with ⟨closes, here⟩ | ⟨open_, last, here⟩
    · rcases second.last with ⟨again, there⟩ | ⟨none, -⟩
      · have last := closes_at_unique _ _ (heading_indents content before) _ _ _ closes again
        exact ⟨last, by rw [here, there, last]⟩
      · exact absurd closes (none _)
    · rcases second.last with ⟨again, -⟩ | ⟨-, same, there⟩
      · exact absurd again (open_ _)
      · exact ⟨last.trans same.symm, here.trans there.symm⟩
  obtain ⟨above, behind, whole, start, stops⟩ := first.text
  obtain ⟨above', behind', whole', start', stops'⟩ := second.text
  have both := whole.symm.trans whole'
  obtain rfl := Text.front_unique above above' _ _ both (by rw [start, start', begins])
  rw [List.append_cancel_left_eq] at both
  have text := Text.front_unique a.text b.text _ _ both (by
    rw [Text.size_append] at stops stops'
    omega)
  cases a
  cases b
  simp_all

section Described

variable {content before : Text} {occurrence : Occurrence} (stands : occurrence.Stands content before) (floor : Nat)
include stands

theorem opening_described (opening : Nat) :
    openingLine (Text.pieces '\n' content) occurrence = some opening ↔
      OpensAt (Text.pieces '\n' content) ((before ++ occurrence.symbol).count '\n')
        (occurrence.rest.takeWhile (· != '\n')) opening := by
  rw [opens_at_iff, headingLast, stands.line, ← List.count_append]
  rfl

theorem grow_described (extent : Extent)
    (grown : Extent.grow (Text.pieces '\n' content) (Text.linesBefore floor (Text.pieces '\n' content)) occurrence =
      some extent) :
    ∃ opening body stop, extent.Described content before occurrence floor opening body stop := by
  obtain ⟨opening, found, made⟩ := Option.map_eq_some_iff.mp grown
  have opens := (opening_described stands opening).mp found
  have headingInside := heading_within stands
  obtain ⟨behind, inside⟩ := opening_line_lt _ occurrence opening headingInside found
  have upto : before.count '\n' ≤ headingLast occurrence := stands.line ▸ Nat.le_add_right _ _
  have longest := body_ends_greatest (headingIndentation content before) (Text.pieces '\n' content) opening
  have begins := comment_starts_least (Text.pieces '\n' content) floor (before.count '\n') (by omega)
  have deeper := body_length_le (headingIndentation content before) ((Text.pieces '\n' content).drop (opening + 1))
  have closings := closes_at_iff (Text.pieces '\n' content) _ (heading_indents content before)
  dsimp only at made
  rw [stands.line, ← headingIndentation] at made
  rw [List.length_drop] at deeper
  generalize first : before.count '\n' - commentsAbove _ _ _ = start at begins made
  have ordered : start ≤ opening + bodyLength (headingIndentation content before)
      ((Text.pieces '\n' content).drop (opening + 1)) := by omega
  have within : opening + bodyLength (headingIndentation content before)
      ((Text.pieces '\n' content).drop (opening + 1)) < (Text.pieces '\n' content).length := by omega
  generalize opening + bodyLength _ _ = body at *
  cases closing : blanksToClosing (headingIndentation content before) ((Text.pieces '\n' content).drop (body + 1)) with
  | none =>
      simp only [closing] at made
      subst made
      refine ⟨opening, body, _, opens, longest, begins, .inr ⟨fun line closes => ?_, rfl, rfl⟩, ?_⟩
      · obtain ⟨blanks, -, found⟩ := (closings body line).mp closes
        rw [closing] at found
        cases found
      · have last : (Text.pieces '\n' content).getD body [] = (Text.pieces '\n' content)[body] := by simp [within]
        rw [last]
        exact text_divides content _ _ [] start body ordered (by simp [within])
          (extent_text_open _ ordered within)
  | some blanks =>
      simp only [closing] at made
      subst made
      have brace := (closings body (body + blanks + 1)).mpr ⟨blanks, rfl, closing⟩
      obtain ⟨rest, line⟩ := brace.2.2
      refine ⟨opening, body, _, opens, longest, begins, .inl ⟨brace, rfl⟩, ?_⟩
      exact text_divides content _ _ rest start (body + blanks + 1) (by omega) (by simpa using line)
        (extent_text_closed _ _ _ _)

end Described

theorem grow_iff_described (content before : Text) (occurrence : Occurrence) (floor : Nat)
    (stands : occurrence.Stands content before) :
    let lines := Text.pieces '\n' content
    (∀ extent, Extent.grow lines (Text.linesBefore floor lines) occurrence = some extent ↔
        ∃ opening body stop, extent.Described content before occurrence floor opening body stop) ∧
      (Extent.grow lines (Text.linesBefore floor lines) occurrence = none ↔
        ¬ ∃ opening, OpensAt lines ((before ++ occurrence.symbol).count '\n')
          (occurrence.rest.takeWhile (· != '\n')) opening) := by
  intro lines
  have opens (opening : Nat) := opening_described stands opening
  have none : Extent.grow lines (Text.linesBefore floor lines) occurrence = none ↔
      ¬ ∃ opening, OpensAt lines ((before ++ occurrence.symbol).count '\n')
        (occurrence.rest.takeWhile (· != '\n')) opening := by
    simp only [lines, ← opens, ← Option.isSome_iff_exists]
    rw [Extent.grow, Option.map_eq_none_iff, Option.not_isSome_iff_eq_none]
  refine ⟨fun extent => ⟨grow_described stands floor extent, ?_⟩, none⟩
  rintro ⟨opening, body, stop, described⟩
  cases made : Extent.grow lines (Text.linesBefore floor lines) occurrence with
  | none => exact absurd ⟨opening, described.opens⟩ (none.mp made)
  | some other =>
      obtain ⟨_, _, _, again⟩ := grow_described stands floor other made
      rw [again.unique described]

-- Tabs, a brace on a line of its own, blank lines inside of the body and below it, and a floor behind the first comment.
theorem grow_described_below_comment :
    let content : Text := "# a\n# b\n\tf\n\t\x7b\n\n\t  x\n \r\n\t\x7d y\n".toList
    let before : Text := "# a\n# b\n\t".toList
    let occurrence : Occurrence := ⟨⟨9, 2, 1, some '\t'⟩, ['f'], "\n\t\x7b\n\n\t  x\n \r\n\t\x7d y\n".toList⟩
    occurrence.Stands content before ∧ ∃ opening body stop,
      Extent.Described content before occurrence 2 opening body stop
        ⟨1, 7, "# b\n\tf\n\t\x7b\n\n\t  x\n \r\n\t\x7d".toList⟩ := by
  intro content before occurrence
  have stands : occurrence.Stands content before := ⟨by decide +kernel, by decide +kernel⟩
  obtain ⟨described, -⟩ := grow_iff_described content before occurrence 2 stands
  exact ⟨stands, (described _).mp (by decide +kernel)⟩

end Block

end BlockSearch
