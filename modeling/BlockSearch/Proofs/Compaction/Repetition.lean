import BlockSearch.Proofs.Compaction.Nesting
import BlockSearch.Proofs.Compaction.Openings

set_option autoImplicit false

namespace BlockSearch.Compaction

section Untouched

-- Nothing is taken out of the lines: none has an opener, or the first opener has no closer behind it.
def Untouched : List Text → Prop
  | [] => True
  | line :: below =>
      match firstOpening line with
      | some (_, delimiter, body) => ∀ part ∈ body :: below, Text.mentions delimiter.closer part = false
      | none => Untouched below

theorem untouched_iff (lines : List Text) :
    Untouched lines ↔ withoutDelimited (Text.joined ['\n'] lines) = Text.joined ['\n'] lines := by
  rw [without_delimited_same_iff]
  induction lines with
  | nil =>
      have none : firstOpening (Text.joined ['\n'] []) = none := rfl
      simp [Untouched, none]
  | cons line below ih =>
      by_cases last : below = []
      · subst last
        rw [Text.joined, List.intercalate_singleton, Untouched]
        cases firstOpening line with
        | none => simp [Untouched]
        | some found => simp
      · rw [Text.joined_cons '\n' line below last, first_opening_gap '\n' rfl, Untouched]
        cases firstOpening line with
        | none =>
            rw [Option.map_none, Option.none_or]
            refine ih.trans ?_
            cases firstOpening (Text.joined ['\n'] below) <;> simp
        | some found =>
            obtain ⟨before, delimiter, body⟩ := found
            have free := (gap_free '\n' rfl delimiter).2
            simp [Text.mentions_divided _ _ '\n' free (closer_ne_nil delimiter),
              Text.mentions_joined _ (closer_ne_nil delimiter) '\n' free]

theorem indents_are_gaps (c : Char) (indent : CharClass.isIndent c = true) : isGap c = true := by
  rw [CharClass.isIndent, Bool.or_eq_true] at indent
  simp only [isGap, Bool.or_eq_true]
  exact .inl (.inl indent)

section Marks

variable (text blanks : Text) (delimiter : Delimiter)

theorem closer_indented (indents : ∀ c ∈ blanks, CharClass.isIndent c = true) :
    Text.mentions delimiter.closer (blanks ++ text) = Text.mentions delimiter.closer text :=
  Text.mentions_lead _ (closer_ne_nil delimiter) _ _ fun c member =>
    (gap_free c (indents_are_gaps c (indents c member)) delimiter).2

theorem closer_trailed (blank : ∀ c ∈ blanks, CharClass.isBlank c = true) :
    Text.mentions delimiter.closer (text ++ blanks) = Text.mentions delimiter.closer text :=
  Text.mentions_tail _ (closer_ne_nil delimiter) _ _ fun c member => (blank_free c delimiter (blank c member)).2

end Marks

section Kept

variable (line : Text) (kept : Line) (found : Line.ofText line = some kept)
include found

theorem kept_opening :
    ∃ lead cut, (∀ c ∈ cut, CharClass.isBlank c = true) ∧
      firstOpening line = (firstOpening kept.body).map fun (before, delimiter, body) =>
        (lead ++ before, delimiter, body ++ cut) := by
  obtain ⟨indentation, cut, rfl, indents, blank⟩ := of_text_divides line kept found
  refine ⟨indentation, cut, blank, ?_⟩
  rw [first_opening_lead _ _ fun c member => indents_are_gaps c (indents c member), first_opening_tail cut blank,
    Option.map_map]
  rfl

theorem kept_closer (scale : Scale) (delimiter : Delimiter) :
    Text.mentions delimiter.closer (kept.laidOut scale) = Text.mentions delimiter.closer line := by
  obtain ⟨indentation, cut, rfl, indents, blank⟩ := of_text_divides line kept found
  rw [Line.laidOut, closer_indented _ _ _ (tabs_indent _), closer_indented _ _ _ indents, closer_trailed _ _ _ blank]

end Kept

theorem unclosed_laid_out (lines : List Text) (scale : Scale) (delimiter : Delimiter)
    (unclosed : ∀ line ∈ lines, Text.mentions delimiter.closer line = false) :
    ∀ part ∈ (lines.filterMap Line.ofText).map (Line.laidOut scale), Text.mentions delimiter.closer part = false := by
  intro part member
  obtain ⟨kept, present, rfl⟩ := List.mem_map.mp member
  obtain ⟨line, among, found⟩ := List.mem_filterMap.mp present
  rw [kept_closer line kept found]
  exact unclosed line among

theorem untouched_laid_out (lines : List Text) (scale : Scale) (untouched : Untouched lines)
    (left : ∀ line ∈ lines, Line.ofText line = none → firstOpening line = none) :
    Untouched ((lines.filterMap Line.ofText).map (Line.laidOut scale)) := by
  induction lines with
  | nil => trivial
  | cons line below ih =>
      have later := fun untouched => ih untouched fun other member => left other (List.mem_cons_of_mem _ member)
      rw [Untouched] at untouched
      cases found : Line.ofText line with
      | none =>
          rw [left line List.mem_cons_self found] at untouched
          rw [List.filterMap_cons_none found]
          exact later untouched
      | some kept =>
          obtain ⟨lead, cut, blank, opening⟩ := kept_opening line kept found
          rw [opening] at untouched
          rw [List.filterMap_cons_some found, List.map_cons, Untouched, Line.laidOut,
            first_opening_lead _ _ fun c member => indents_are_gaps c (tabs_indent _ c member)]
          cases inside : firstOpening kept.body with
          | none =>
              rw [inside] at untouched
              exact later untouched
          | some opened =>
              obtain ⟨before, delimiter, body⟩ := opened
              rw [inside] at untouched
              obtain ⟨here, behind⟩ := List.forall_mem_cons.mp untouched
              rw [closer_trailed _ _ _ blank] at here
              exact List.forall_mem_cons.mpr ⟨here, unclosed_laid_out below scale delimiter behind⟩

end Untouched

section Written

theorem written_joined (parts : List Text) : written (Text.joined ['\n'] parts) = written parts.flatten := by
  induction parts with
  | nil => rfl
  | cons part parts ih =>
      by_cases last : parts = []
      · simp [last, Text.joined]
      · have newline : written ['\n'] = 0 := by decide
        rw [Text.joined_cons '\n' part parts last, List.flatten_cons, List.append_cons, written_append, written_append,
          written_append, newline, ih, Nat.add_zero]

theorem written_laid_out (scale : Scale) (line : Line) : written (line.laidOut scale) = written line.body := by
  have tab : (!CharClass.isBlank '\t') = false := by decide
  simp [written, Line.laidOut, List.countP_replicate, tab]

theorem written_kept (scale : Scale) (lines : List Text) :
    written ((lines.filterMap Line.ofText).map (Line.laidOut scale)).flatten ≤ written lines.flatten := by
  induction lines with
  | nil => exact Nat.le_refl _
  | cons line lines ih =>
      rw [List.flatten_cons, written_append]
      cases found : Line.ofText line with
      | none =>
          rw [List.filterMap_cons_none found]
          omega
      | some kept =>
          obtain ⟨indentation, cut, whole, -⟩ := of_text_divides line kept found
          have fewer : written kept.body ≤ written line := by
            rw [whole, written_append, written_append]
            omega
          rw [List.filterMap_cons_some found, List.map_cons, List.flatten_cons, written_append, written_laid_out]
          omega

theorem written_compact (text : Text) : written (compact text) ≤ written (withoutDelimited text) := by
  have kept := written_kept (Scale.ofLines (keptLines (withoutDelimited text))) (Text.pieces '\n' (withoutDelimited text))
  rw [← written_joined, ← written_joined, ← kept_lines_eq, Text.joined_pieces] at kept
  exact kept

end Written

section Again

theorem depth_laid_out (lines : List Line) (line : Line) (among : line ∈ lines) :
    let again : Line → Line := fun line => ⟨(Scale.ofLines lines).depth line * tabWidth, line.body⟩
    (Scale.ofLines (lines.map again)).depth (again line) = (Scale.ofLines lines).depth line := by
  intro again
  obtain ⟨⟨least, present, base⟩, lowest⟩ := Scale.base_least lines (List.ne_nil_of_mem among)
  have flat : (Scale.ofLines lines).depth least = 0 :=
    depth_of_least lines least present fun other member => base ▸ lowest other member
  have someAgain : lines.map again ≠ [] := List.ne_nil_of_mem (List.mem_map_of_mem among)
  have zero : Scale.baseOf (lines.map again) = 0 := by
    have low := (Scale.base_least _ someAgain).2 (again least) (List.mem_map_of_mem present)
    simp only [again, flat, Nat.zero_mul] at low
    exact Nat.le_zero.mp low
  have measured (step : Option Nat) (stepped : Scale.stepOf 0 (lines.map again) = step) :
      Scale.ofLines (lines.map again) = ⟨0, step⟩ := by
    rw [Scale.ofLines, zero, stepped]
  rcases Scale.step_cases (lines.map again) 0 with ⟨none, allFlat⟩ | ⟨deeper, deepAmong, above, some, next⟩
  · have width : (Scale.ofLines lines).depth line * tabWidth ≤ 0 := allFlat (again line) (List.mem_map_of_mem among)
    have here : (Scale.ofLines lines).depth line = 0 := by
      simp only [tabWidth] at width
      omega
    rw [measured _ none, here]
    rfl
  · obtain ⟨deep, -, rfl⟩ := List.mem_map.mp deepAmong
    obtain ⟨one, oneAmong, single⟩ := depth_one lines deep (Nat.pos_of_mul_pos_right above)
    have most := next (again one) (List.mem_map_of_mem oneAmong) (by simp [again, single, tabWidth])
    have width : (again deep).width = tabWidth := by
      simp only [again, single, tabWidth] at above most ⊢
      omega
    rw [measured _ some, Scale.depth, width]
    exact Nat.mul_div_cancel _ (by decide)

theorem lay_out_kept (lines : List Line) (code : ∀ line ∈ lines, IsCode line.body) :
    layOut (keptLines (layOut lines)) = layOut lines := by
  rw [kept_lines_laid_out lines code, layOut, layOut, List.map_map]
  refine congrArg (Text.joined ['\n']) (List.map_congr_left fun line member => ?_)
  simp only [Function.comp_apply, Line.laidOut]
  rw [depth_laid_out lines line member]

theorem compact_fixed_iff (text : Text) :
    compact (compact text) = compact text ↔ withoutDelimited (compact text) = compact text := by
  constructor
  · intro fixed
    by_contra changed
    have less := without_delimited_changed (compact text) changed
    have more := written_compact (compact text)
    rw [fixed] at more
    omega
  · intro still
    rw [compact, still]
    exact lay_out_kept _ (kept_line_code _)

theorem compact_untouched (text : Text) (once : withoutDelimited (withoutDelimited text) = withoutDelimited text)
    (left : ∀ line ∈ Text.pieces '\n' (withoutDelimited text), Line.ofText line = none → firstOpening line = none) :
    withoutDelimited (compact text) = compact text := by
  rw [← Text.joined_pieces '\n' (withoutDelimited text), ← untouched_iff] at once
  have laidOut := untouched_laid_out _ (Scale.ofLines (keptLines (withoutDelimited text))) once left
  rw [untouched_iff, ← kept_lines_eq] at laidOut
  exact laidOut

-- The second time changes nothing just where no comment is there to take out of the compacted text, as it is if taking out
-- the comments brings no other together and no line that is left out has an opener.
theorem compact_again (text : Text) :
    (compact (compact text) = compact text ↔ withoutDelimited (compact text) = compact text) ∧
      (withoutDelimited (withoutDelimited text) = withoutDelimited text →
        (∀ line ∈ Text.pieces '\n' (withoutDelimited text), Line.ofText line = none → firstOpening line = none) →
          compact (compact text) = compact text) :=
  ⟨compact_fixed_iff text, fun once left => (compact_fixed_iff text).mpr (compact_untouched text once left)⟩

theorem compact_again_with_open_comment :
    let text := "a \x7b\n    \"\"\"doc\"\"\"\n  // why\n  /* open\n     b\n\x7d".toList
    withoutDelimited (compact text) = compact text ∧
      withoutDelimited (withoutDelimited text) = withoutDelimited text ∧
      (∀ line ∈ Text.pieces '\n' (withoutDelimited text), Line.ofText line = none → firstOpening line = none) ∧
      compact text = "a \x7b\n\t/* open\n\t\tb\n\x7d".toList ∧ compact (compact text) = compact text := by
  intro text
  have still : withoutDelimited (compact text) = compact text := by decide +kernel
  have once : withoutDelimited (withoutDelimited text) = withoutDelimited text := by decide +kernel
  have left : ∀ line ∈ Text.pieces '\n' (withoutDelimited text), Line.ofText line = none → firstOpening line = none := by
    decide +kernel
  exact ⟨still, once, left, by decide +kernel, (compact_again text).2 once left⟩

-- What was no comment before becomes one when the comment inside is taken out.
theorem comment_brought_together :
    let text := "/\"\"\"x\"\"\"* y */".toList
    compact text = "/* y */".toList ∧ compact (compact text) = [] ∧ compact (compact text) ≠ compact text := by
  decide +kernel

end Again

end BlockSearch.Compaction
