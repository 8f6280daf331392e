import BlockSearch.Compaction.Delimited
import BlockSearch.Proofs.Text.Search

set_option autoImplicit false

namespace BlockSearch.Compaction

def leftOpen (text : Text) : Option Delimiter :=
  match _opening : firstOpening text with
  | none => none
  | some (_, delimiter, body) =>
      match _closing : Text.splitAtFirst delimiter.closer body with
      | some (_, rest) => leftOpen rest
      | none => some delimiter
termination_by text.length
decreasing_by exact after_comment_shorter text _ body _ rest delimiter _opening _closing

section Steps

variable (text front body : Text) (delimiter : Delimiter)

theorem without_delimited_plain (none : firstOpening text = none) : withoutDelimited text = text := by
  rw [withoutDelimited]
  split
  · rfl
  · rename_i opening
    rw [none] at opening
    cases opening

variable (opening : firstOpening text = some (front, delimiter, body))
include opening

theorem without_delimited_closed (inner rest : Text)
    (closing : Text.splitAtFirst delimiter.closer body = some (inner, rest)) :
    withoutDelimited text = front ++ withoutDelimited rest := by
  rw [withoutDelimited]
  split
  · rename_i none
    rw [none] at opening
    cases opening
  · rename_i found
    obtain ⟨rfl, rfl, rfl⟩ : _ ∧ _ ∧ _ := by simpa using opening.symm.trans found
    split
    · rename_i closed
      obtain ⟨-, rfl⟩ : _ ∧ _ := by simpa using closing.symm.trans closed
      rfl
    · rename_i unclosed
      rw [unclosed] at closing
      cases closing

theorem without_delimited_open (unclosed : Text.splitAtFirst delimiter.closer body = none) :
    withoutDelimited text = text := by
  rw [withoutDelimited]
  split
  · rfl
  · rename_i found
    obtain ⟨rfl, rfl, rfl⟩ : _ ∧ _ ∧ _ := by simpa using opening.symm.trans found
    split
    · rename_i closed
      rw [unclosed] at closed
      cases closed
    · rfl

end Steps

theorem closer_ne_nil (delimiter : Delimiter) : delimiter.closer ≠ [] :=
  List.ne_nil_of_length_pos delimiter.closer_length_pos

theorem blank_free (c : Char) (delimiter : Delimiter) (blank : CharClass.isBlank c = true) :
    c ∉ delimiter.opener ∧ c ∉ delimiter.closer := by
  have marks : (delimiter.opener ++ delimiter.closer).any CharClass.isBlank = false := by cases delimiter <;> decide
  rw [List.any_eq_false] at marks
  exact ⟨fun member => marks c (List.mem_append_left _ member) blank,
    fun member => marks c (List.mem_append_right _ member) blank⟩

section Tail

variable (tail : Text) (blank : ∀ c ∈ tail, CharClass.isBlank c = true)
include blank

theorem split_at_block_blank (free : Bool) : splitAtBlock free tail = none := by
  induction tail generalizing free with
  | nil => rfl
  | cons c tail ih =>
      have behind := ih (fun d later => blank d (List.mem_cons_of_mem _ later)) (isGap c)
      have apart := (blank_free c .block (blank c List.mem_cons_self)).1
      have none : Text.afterLead Delimiter.block.opener (c :: tail) = none :=
        Text.after_lead_divided Delimiter.block.opener tail c apart []
      simp [splitAtBlock, none, behind]

theorem split_at_block_tail (free : Bool) (text : Text) :
    splitAtBlock free (text ++ tail) =
      (splitAtBlock free text).map fun (before, rest) => (before, rest ++ tail) := by
  induction text generalizing free with
  | nil => exact split_at_block_blank tail blank free
  | cons c text ih =>
      have here : Text.afterLead Delimiter.block.opener (c :: (text ++ tail)) =
          (Text.afterLead Delimiter.block.opener (c :: text)).map (· ++ tail) :=
        Text.after_lead_tail Delimiter.block.opener (c :: text) tail fun d first =>
          (blank_free d .block (blank d (List.mem_of_mem_head? first))).1
      rw [List.cons_append, splitAtBlock, splitAtBlock, here, ih]
      cases free with
      | false => cases splitAtBlock (isGap c) text <;> rfl
      | true =>
          cases Text.afterLead Delimiter.block.opener (c :: text) with
          | some rest => rfl
          | none => cases splitAtBlock (isGap c) text <;> rfl

theorem first_opening_tail (text : Text) :
    firstOpening (text ++ tail) =
      (firstOpening text).map fun (before, delimiter, body) => (before, delimiter, body ++ tail) := by
  have documentation := Text.split_at_first_tail Delimiter.documentation.opener (List.cons_ne_nil _ _) text tail
    fun c member => (blank_free c .documentation (blank c member)).1
  rw [firstOpening, firstOpening, split_at_block_tail tail blank, documentation]
  cases splitAtBlock true text with
  | none => cases Text.splitAtFirst Delimiter.documentation.opener text <;> rfl
  | some block =>
      cases Text.splitAtFirst Delimiter.documentation.opener text with
      | none => rfl
      | some doc => by_cases first : block.1.length ≤ doc.1.length <;> simp [first]

end Tail

section Gap

variable (c : Char) (gap : isGap c = true)
include gap

theorem gap_is_blank : CharClass.isBlank c = true := by
  simp only [isGap, Bool.or_eq_true, beq_iff_eq] at gap
  rcases gap with ((rfl | rfl) | rfl) | rfl <;> decide

theorem gap_free (delimiter : Delimiter) : c ∉ delimiter.opener ∧ c ∉ delimiter.closer :=
  blank_free c delimiter (gap_is_blank c gap)

theorem split_at_block_gap (free : Bool) (front behind : Text) :
    splitAtBlock free (front ++ c :: behind) =
      ((splitAtBlock free front).map fun (before, rest) => (before, rest ++ c :: behind)).or
        ((splitAtBlock true behind).map fun (before, rest) => (front ++ c :: before, rest)) := by
  have apart (front : Text) := Text.after_lead_divided Delimiter.block.opener behind c (gap_free c gap .block).1 front
  induction front generalizing free with
  | nil =>
      have none : Text.afterLead Delimiter.block.opener (c :: behind) = none := apart []
      simp [splitAtBlock, none, gap]
  | cons d front ih =>
      have here := apart (d :: front)
      rw [List.cons_append] at here
      rw [List.cons_append, splitAtBlock, splitAtBlock, here, ih]
      cases free with
      | false => cases splitAtBlock (isGap d) front <;> cases splitAtBlock true behind <;> rfl
      | true =>
          cases Text.afterLead Delimiter.block.opener (d :: front) with
          | some rest => rfl
          | none => cases splitAtBlock (isGap d) front <;> cases splitAtBlock true behind <;> rfl

theorem first_opening_gap (front behind : Text) :
    firstOpening (front ++ c :: behind) =
      ((firstOpening front).map fun (before, delimiter, body) => (before, delimiter, body ++ c :: behind)).or
        ((firstOpening behind).map fun (before, delimiter, body) => (front ++ c :: before, delimiter, body)) := by
  have documentation := Text.split_at_first_divided Delimiter.documentation.opener behind c
    (gap_free c gap .documentation).1 (List.cons_ne_nil _ _) front
  rw [firstOpening, firstOpening, firstOpening, split_at_block_gap c gap, documentation]
  -- An opener in front of the blank comes before one behind it.
  cases blockHere : splitAtBlock true front with
  | none =>
      cases docHere : Text.splitAtFirst Delimiter.documentation.opener front with
      | none =>
          cases splitAtBlock true behind <;> cases Text.splitAtFirst Delimiter.documentation.opener behind <;>
            simp [apply_ite]
      | some doc =>
          have within := congrArg List.length (Text.split_at_first_eq _ front _ _ docHere)
          rw [List.length_append] at within
          cases splitAtBlock true behind with
          | none => rfl
          | some block =>
              have later : doc.1.length < front.length + (block.1.length + 1) := by omega
              simp [later]
  | some block =>
      have within := congrArg List.length (split_at_block_eq true front _ _ blockHere)
      rw [List.length_append] at within
      cases Text.splitAtFirst Delimiter.documentation.opener front with
      | some doc => by_cases first : block.1.length ≤ doc.1.length <;> simp [first]
      | none =>
          cases Text.splitAtFirst Delimiter.documentation.opener behind with
          | none => rfl
          | some doc =>
              have later : block.1.length ≤ front.length + (doc.1.length + 1) := by omega
              simp [later]

theorem first_opening_here (front behind before body : Text) (delimiter : Delimiter)
    (opening : firstOpening front = some (before, delimiter, body)) :
    firstOpening (front ++ c :: behind) = some (before, delimiter, body ++ c :: behind) := by
  rw [first_opening_gap c gap, opening, Option.map_some, Option.some_or]

theorem closing_gap (delimiter : Delimiter) (body behind : Text) :
    Text.splitAtFirst delimiter.closer (body ++ c :: behind) =
      ((Text.splitAtFirst delimiter.closer body).map fun (inner, rest) => (inner, rest ++ c :: behind)).or
        ((Text.splitAtFirst delimiter.closer behind).map fun (inner, rest) => (body ++ c :: inner, rest)) :=
  Text.split_at_first_divided delimiter.closer behind c (gap_free c gap delimiter).2 (closer_ne_nil delimiter) body

theorem without_delimited_gap (front behind : Text) (closed : leftOpen front = none) :
    withoutDelimited (front ++ c :: behind) = withoutDelimited front ++ c :: withoutDelimited behind := by
  fun_induction leftOpen front with
  | case1 front none =>
      have next := first_opening_gap c gap front behind
      rw [none, Option.map_none, Option.none_or] at next
      rw [without_delimited_plain front none]
      cases opening : firstOpening behind with
      | none =>
          rw [opening] at next
          rw [without_delimited_plain _ next, without_delimited_plain behind opening]
      | some found =>
          obtain ⟨before, delimiter, body⟩ := found
          rw [opening] at next
          cases closing : Text.splitAtFirst delimiter.closer body with
          | none => rw [without_delimited_open _ _ _ _ next closing, without_delimited_open _ _ _ _ opening closing]
          | some cut =>
              rw [without_delimited_closed _ _ _ _ next cut.1 cut.2 closing,
                without_delimited_closed _ _ _ _ opening cut.1 cut.2 closing, List.append_assoc, List.cons_append]
  | case2 front before delimiter body opening inner rest closing ih =>
      have closes := closing_gap c gap delimiter body behind
      rw [closing, Option.map_some, Option.some_or] at closes
      rw [without_delimited_closed _ _ _ _ (first_opening_here c gap _ _ _ _ _ opening) _ _ closes,
        without_delimited_closed _ _ _ _ opening _ _ closing, ih closed, List.append_assoc]
  | case3 front before delimiter body opening unclosed => cases closed

theorem without_delimited_left_open (front behind inside rest : Text) (delimiter : Delimiter)
    (left : leftOpen front = some delimiter)
    (closing : Text.splitAtFirst delimiter.closer behind = some (inside, rest)) :
    ∃ kept, kept ⊆ front ∧ withoutDelimited (front ++ c :: behind) = kept ++ withoutDelimited rest := by
  fun_induction leftOpen front with
  | case1 front none => cases left
  | case2 front before other body opening inner next closed ih =>
      obtain ⟨kept, among, stripped⟩ := ih left
      have closes := closing_gap c gap other body behind
      rw [closed, Option.map_some, Option.some_or] at closes
      refine ⟨before ++ kept, ?_, ?_⟩
      · rw [first_opening_eq front before body other opening, Text.split_at_first_eq _ body inner next closed]
        intro d member
        rcases List.mem_append.mp member with here | there
        · simp [here]
        · simp [among there]
      · rw [without_delimited_closed _ _ _ _ (first_opening_here c gap _ _ _ _ _ opening) _ _ closes, stripped,
          List.append_assoc]
  | case3 front before other body opening unclosed =>
      obtain rfl := Option.some.inj left
      have closes := closing_gap c gap other body behind
      rw [unclosed, closing, Option.map_none, Option.none_or, Option.map_some] at closes
      refine ⟨before, ?_, without_delimited_closed _ _ _ _ (first_opening_here c gap _ _ _ _ _ opening) _ _ closes⟩
      rw [first_opening_eq front before body other opening]
      exact List.subset_append_left _ _

end Gap

theorem first_opening_lead (lead text : Text) (gaps : ∀ c ∈ lead, isGap c = true) :
    firstOpening (lead ++ text) =
      (firstOpening text).map fun (before, delimiter, body) => (lead ++ before, delimiter, body) := by
  induction lead with
  | nil => simp
  | cons c lead ih =>
      have step := first_opening_gap c (gaps c List.mem_cons_self) [] (lead ++ text)
      rw [ih fun d later => gaps d (List.mem_cons_of_mem _ later)] at step
      rw [List.cons_append, ← List.nil_append (c :: (lead ++ text)), step]
      cases firstOpening text <;> rfl

theorem without_delimited_sublist (text : Text) : (withoutDelimited text).Sublist text := by
  fun_induction withoutDelimited text with
  | case1 text none => exact List.Sublist.refl text
  | case2 text front delimiter body opening inner rest closing ih =>
      rw [first_opening_eq text front body delimiter opening, Text.split_at_first_eq _ body inner rest closing]
      refine List.Sublist.append_left (ih.trans ?_) front
      rw [← List.append_assoc, ← List.append_assoc]
      exact List.sublist_append_right _ rest
  | case3 text front delimiter body opening unclosed => exact List.Sublist.refl text

def written (text : Text) : Nat := text.countP fun c => !CharClass.isBlank c

theorem written_append (front behind : Text) : written (front ++ behind) = written front + written behind :=
  List.countP_append

-- A comment that is taken out takes its marks away.
theorem without_delimited_fewer (text front body inner rest : Text) (delimiter : Delimiter)
    (opening : firstOpening text = some (front, delimiter, body))
    (closing : Text.splitAtFirst delimiter.closer body = some (inner, rest)) :
    written (withoutDelimited text) < written text := by
  have whole : text = front ++ (delimiter.opener ++ (inner ++ (delimiter.closer ++ rest))) := by
    rw [first_opening_eq text front body delimiter opening, Text.split_at_first_eq _ body inner rest closing]
  have kept : written (withoutDelimited rest) ≤ written rest := (without_delimited_sublist rest).countP_le
  have marks : 0 < written delimiter.closer := by cases delimiter <;> decide
  rw [without_delimited_closed text front body delimiter opening inner rest closing, whole]
  simp only [written_append]
  omega

theorem without_delimited_changed (text : Text) (changed : withoutDelimited text ≠ text) :
    written (withoutDelimited text) < written text := by
  cases opening : firstOpening text with
  | none => exact absurd (without_delimited_plain text opening) changed
  | some found =>
      obtain ⟨front, delimiter, body⟩ := found
      cases closing : Text.splitAtFirst delimiter.closer body with
      | none => exact absurd (without_delimited_open text front body delimiter opening closing) changed
      | some cut => exact without_delimited_fewer text front body cut.1 cut.2 delimiter opening closing

theorem without_delimited_same_iff (text : Text) :
    withoutDelimited text = text ↔
      ∀ opening ∈ firstOpening text, Text.mentions opening.2.1.closer opening.2.2 = false := by
  constructor
  · rintro same ⟨front, delimiter, body⟩ opening
    cases closing : Text.splitAtFirst delimiter.closer body with
    | none => simp [Text.mentions, closing]
    | some cut =>
        have fewer := without_delimited_fewer text front body cut.1 cut.2 delimiter opening closing
        rw [same] at fewer
        exact absurd fewer (Nat.lt_irrefl _)
  · intro unclosed
    cases opening : firstOpening text with
    | none => exact without_delimited_plain text opening
    | some found =>
        have none := unclosed found opening
        rw [Text.mentions, Option.isSome_eq_false_iff, Option.isNone_iff_eq_none] at none
        exact without_delimited_open text found.1 found.2.2 found.2.1 opening none

end BlockSearch.Compaction
