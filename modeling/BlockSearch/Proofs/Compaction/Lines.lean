import BlockSearch.Compaction.Layout
import BlockSearch.Proofs.Text.Trimming
import Mathlib.Data.List.Basic

set_option autoImplicit false

namespace BlockSearch.Compaction

section Kept

def Line.ofText (line : Text) : Option Line :=
  let trimmed := Text.trimEnd line
  if trimmed.isEmpty || isLineComment trimmed then none else some (Line.measure trimmed)

theorem trim_end_return (line : Text) : Text.trimEnd ((Text.beforeTail ['\r'] line).getD line) = Text.trimEnd line := by
  cases cut : Text.beforeTail ['\r'] line with
  | none => rfl
  | some front =>
      have blank : ∀ c ∈ ['\r'], CharClass.isBlank c = true := List.forall_mem_singleton.mpr (by decide)
      rw [Option.getD_some, Text.before_tail_eq _ _ _ cut, Text.trimEnd, Text.trimEnd,
        Text.drop_end_while_further _ _ _ blank]

theorem kept_of_lines (lines : List Text) :
    ((lines.map Text.trimEnd).filter fun line => !line.isEmpty && !isLineComment line).map Line.measure =
      lines.filterMap Line.ofText := by
  induction lines with
  | nil => rfl
  | cons line lines ih =>
      rw [List.map_cons, List.filter_cons, List.filterMap_cons, Line.ofText, ← Bool.not_or]
      by_cases left : ((Text.trimEnd line).isEmpty || isLineComment (Text.trimEnd line)) = true
      · simpa [left] using ih
      · simpa [left] using ih

-- Neither the return before a newline nor an empty last line makes a difference.
theorem kept_lines_eq (text : Text) : keptLines text = (Text.pieces '\n' text).filterMap Line.ofText := by
  rw [keptLines, kept_of_lines, Text.shownLines]
  generalize Text.pieces '\n' text = lines
  fun_induction Text.shownLines.ended lines with
  | case1 => rfl
  | case2 last none =>
      rw [List.isEmpty_iff.mp none]
      rfl
  | case3 last some => rfl
  | case4 first rest several ih =>
      rw [List.filterMap_cons, List.filterMap_cons, ih, Line.ofText, trim_end_return, ← Line.ofText]

theorem kept_lines_divided (front behind : Text) :
    keptLines (front ++ '\n' :: behind) = keptLines front ++ keptLines behind := by
  rw [kept_lines_eq, kept_lines_eq, kept_lines_eq, Text.pieces_append, List.filterMap_append]

end Kept

section Code

-- What a kept line says: something on a single line, without indentation and without blanks behind it.
structure IsCode (body : Text) : Prop where
  nonempty : body ≠ []
  starts : ∀ c ∈ body.head?, CharClass.isIndent c = false
  ends : ∀ c ∈ body.getLast?, CharClass.isBlank c = false
  plain : isLineComment body = false
  single : '\n' ∉ body

theorem line_comment_indented (indentation body : Text) (indents : ∀ c ∈ indentation, CharClass.isIndent c = true) :
    isLineComment (indentation ++ body) = isLineComment body := by
  have same : Text.trimStart (indentation ++ body) = Text.trimStart body :=
    List.dropWhile_append_of_pos fun c member => CharClass.indent_is_blank c (indents c member)
  simp only [isLineComment, same]

theorem of_text_divides (line : Text) (kept : Line) (found : Line.ofText line = some kept) :
    ∃ indentation cut, line = indentation ++ (kept.body ++ cut) ∧ (∀ c ∈ indentation, CharClass.isIndent c = true) ∧
      ∀ c ∈ cut, CharClass.isBlank c = true := by
  rw [Line.ofText] at found
  split at found
  · cases found
  · obtain rfl := Option.some.inj found
    obtain ⟨cut, whole, blank⟩ := Text.drop_end_while_split CharClass.isBlank line
    have divided : Text.indentation (Text.trimEnd line) ++ (Line.measure (Text.trimEnd line)).body = Text.trimEnd line :=
      List.takeWhile_append_dropWhile
    refine ⟨Text.indentation (Text.trimEnd line), cut, ?_, fun c => List.mem_takeWhile_imp, blank⟩
    rw [← List.append_assoc, divided]
    exact whole

theorem measured_code (line : Text) (shown : line ≠ []) (ends : ∀ c ∈ line.getLast?, CharClass.isBlank c = false)
    (plain : isLineComment line = false) (single : '\n' ∉ line) : IsCode (Line.measure line).body := by
  have divided : line = Text.indentation line ++ (Line.measure line).body := List.takeWhile_append_dropWhile.symm
  have indents : ∀ c ∈ Text.indentation line, CharClass.isIndent c = true := fun c => List.mem_takeWhile_imp
  -- The last character is no blank, so it is none of the indentation.
  have nonempty : (Line.measure line).body ≠ [] := by
    intro none
    rw [none, List.append_nil] at divided
    obtain ⟨c, last⟩ : ∃ c, line.getLast? = some c := ⟨_, List.getLast?_eq_some_getLast shown⟩
    have member := List.mem_of_getLast? last
    rw [divided] at member
    have blank := CharClass.indent_is_blank c (indents c member)
    rw [ends c last] at blank
    cases blank
  refine ⟨nonempty, ?_, ?_, ?_, ?_⟩
  · intro c first
    have stopped := List.head?_dropWhile_not CharClass.isIndent line
    rw [show (line.dropWhile CharClass.isIndent).head? = some c from first] at stopped
    simpa using stopped
  · intro c last
    apply ends c
    rw [divided, List.getLast?_append_of_ne_nil _ nonempty]
    exact last
  · rw [divided, line_comment_indented _ _ indents] at plain
    exact plain
  · intro newline
    exact single (divided ▸ List.mem_append_right _ newline)

theorem of_text_code (line : Text) (kept : Line) (single : '\n' ∉ line) (found : Line.ofText line = some kept) :
    IsCode kept.body := by
  rw [Line.ofText] at found
  split at found
  · cases found
  · rename_i left
    obtain rfl := Option.some.inj found
    simp only [Bool.or_eq_true, List.isEmpty_iff, not_or, Bool.not_eq_true] at left
    obtain ⟨cut, whole, -⟩ := Text.drop_end_while_split CharClass.isBlank line
    refine measured_code _ left.1 (Text.drop_end_while_last CharClass.isBlank line) left.2 fun newline => single ?_
    rw [whole]
    exact List.mem_append_left _ newline

theorem kept_line_code (text : Text) (line : Line) (kept : line ∈ keptLines text) : IsCode line.body := by
  rw [kept_lines_eq] at kept
  obtain ⟨piece, member, found⟩ := List.mem_filterMap.mp kept
  exact of_text_code piece line (Text.piece_free '\n' text piece member) found

theorem columns_tabs (depth : Nat) : columns (List.replicate depth '\t') = depth * tabWidth := by
  induction depth with
  | zero => rfl
  | succ depth ih =>
      have step : columns (List.replicate (depth + 1) '\t') = tabWidth + columns (List.replicate depth '\t') := rfl
      rw [step, ih, Nat.succ_mul, Nat.add_comm]

theorem tabs_indent (depth : Nat) : ∀ c ∈ List.replicate depth '\t', CharClass.isIndent c = true := by
  intro c member
  rw [List.eq_of_mem_replicate member]
  rfl

variable {body : Text} (code : IsCode body) (depth : Nat)
include code

theorem measure_laid_out : Line.measure (List.replicate depth '\t' ++ body) = ⟨depth * tabWidth, body⟩ := by
  obtain ⟨first, rest, rfl⟩ := List.exists_cons_of_ne_nil code.nonempty
  have stops : CharClass.isIndent first = false := code.starts first rfl
  rw [Line.measure, Text.indentation, List.takeWhile_append_of_pos (tabs_indent depth),
    List.dropWhile_append_of_pos (tabs_indent depth)]
  simp [stops, columns_tabs]

theorem of_text_laid_out : Line.ofText (List.replicate depth '\t' ++ body) = some ⟨depth * tabWidth, body⟩ := by
  have trimmed : Text.trimEnd (List.replicate depth '\t' ++ body) = List.replicate depth '\t' ++ body := by
    apply Text.drop_end_while_kept
    rw [List.getLast?_append_of_ne_nil _ code.nonempty]
    exact code.ends
  rw [Line.ofText, trimmed, line_comment_indented _ _ (tabs_indent depth), code.plain, measure_laid_out code]
  simp [code.nonempty]

end Code

section LaidOut

variable (lines : List Line) (code : ∀ line ∈ lines, IsCode line.body)
include code

theorem pieces_laid_out (nonempty : lines ≠ []) :
    Text.pieces '\n' (layOut lines) = lines.map (Line.laidOut (Scale.ofLines lines)) := by
  refine Text.pieces_joined '\n' _ ?_ (by simpa using nonempty)
  intro line member newline
  obtain ⟨kept, among, rfl⟩ := List.mem_map.mp member
  rcases List.mem_append.mp newline with tab | body
  · exact absurd (List.eq_of_mem_replicate tab) (by decide)
  · exact (code kept among).single body

theorem kept_lines_laid_out :
    keptLines (layOut lines) =
      lines.map fun line => ⟨(Scale.ofLines lines).depth line * tabWidth, line.body⟩ := by
  by_cases nonempty : lines = []
  · subst nonempty
    rfl
  · rw [kept_lines_eq, pieces_laid_out lines code nonempty, List.filterMap_map, ← List.filterMap_eq_map]
    exact List.filterMap_congr fun line member => of_text_laid_out (code line member) _

end LaidOut

end BlockSearch.Compaction
