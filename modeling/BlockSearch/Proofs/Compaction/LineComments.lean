import BlockSearch.Proofs.Compaction.Lines
import BlockSearch.Proofs.Compaction.Openings

set_option autoImplicit false

namespace BlockSearch.Compaction

def withLineComment (front comment behind : Text) : Text :=
  front ++ '\n' :: ("//".toList ++ ' ' :: (comment ++ '\n' :: behind))

theorem kept_of_comment (rest : Text) (single : '\n' ∉ rest) : keptLines ('/' :: '/' :: rest) = [] := by
  have trimmed : Text.trimEnd ('/' :: '/' :: rest) = '/' :: '/' :: Text.trimEnd rest := by
    rw [Text.trimEnd, Text.drop_end_while_cons _ _ _ (by decide), Text.drop_end_while_cons _ _ _ (by decide),
      ← Text.trimEnd]
  have comment : isLineComment ('/' :: '/' :: Text.trimEnd rest) = true := by
    have start : Text.trimStart ('/' :: '/' :: Text.trimEnd rest) = '/' :: '/' :: Text.trimEnd rest :=
      List.dropWhile_cons_of_neg (by decide)
    simp [isLineComment, start, Text.startsWith, Text.afterLead]
  have whole : Text.pieces '\n' ('/' :: '/' :: rest) = ['/' :: '/' :: rest] :=
    (Text.pieces_single_iff '\n' _ _).mpr ⟨rfl, by simpa using single⟩
  rw [kept_lines_eq, whole, List.filterMap_cons, Line.ofText, trimmed, comment, Bool.or_true]
  rfl

theorem slashes_plain : leftOpen "//".toList = none ∧ withoutDelimited "//".toList = "//".toList := by decide +kernel

section Closed

variable (front comment behind : Text)

theorem without_delimited_comment (closedFront : leftOpen front = none) (closed : leftOpen comment = none) :
    withoutDelimited (withLineComment front comment behind) =
      withLineComment (withoutDelimited front) (withoutDelimited comment) (withoutDelimited behind) := by
  rw [withLineComment, without_delimited_gap '\n' rfl _ _ closedFront,
    without_delimited_gap ' ' rfl _ _ slashes_plain.1, slashes_plain.2, without_delimited_gap '\n' rfl _ _ closed,
    ← withLineComment]

theorem kept_lines_comment (single : '\n' ∉ comment) :
    keptLines (withLineComment front comment behind) = keptLines (front ++ '\n' :: behind) := by
  have line : "//".toList ++ ' ' :: (comment ++ '\n' :: behind) = ('/' :: '/' :: ' ' :: comment) ++ '\n' :: behind := rfl
  rw [withLineComment, line, kept_lines_divided, kept_lines_divided, kept_lines_divided,
    kept_of_comment (' ' :: comment) (by simpa using single), List.nil_append]

end Closed

theorem open_comment_takes_line (comment : Text) (delimiter : Delimiter) (single : '\n' ∉ comment)
    (left : leftOpen comment = some delimiter) :
    compact (withLineComment [] comment ("x\n".toList ++ delimiter.closer)) ≠
      compact ('\n' :: ("x\n".toList ++ delimiter.closer)) := by
  have closing : Text.splitAtFirst delimiter.closer ("x\n".toList ++ delimiter.closer) = some ("x\n".toList, []) := by
    cases delimiter <;> decide
  obtain ⟨kept, among, stripped⟩ := without_delimited_left_open '\n' rfl comment _ _ _ delimiter left closing
  have nothing : leftOpen [] = none ∧ withoutDelimited [] = [] := by decide +kernel
  have line : "//".toList ++ ' ' :: kept = '/' :: '/' :: ' ' :: kept := rfl
  have free : '\n' ∉ ' ' :: kept := by simpa using fun newline => single (among newline)
  have gone : compact (withLineComment [] comment ("x\n".toList ++ delimiter.closer)) = [] := by
    rw [compact, withLineComment, without_delimited_gap '\n' rfl _ _ nothing.1,
      without_delimited_gap ' ' rfl _ _ slashes_plain.1, stripped, slashes_plain.2, nothing.2, List.append_nil,
      kept_lines_divided, line, kept_of_comment _ free]
    rfl
  rw [gone]
  cases delimiter <;> decide +kernel

-- The comments that make no difference, wherever they stand, are those that close what they open.
theorem comment_passes_iff (comment : Text) (single : '\n' ∉ comment) :
    (∀ front behind, leftOpen front = none →
      compact (withLineComment front comment behind) = compact (front ++ '\n' :: behind)) ↔
      leftOpen comment = none := by
  constructor
  · intro passes
    cases left : leftOpen comment with
    | none => rfl
    | some delimiter =>
        exact absurd (passes [] _ (by decide +kernel)) (open_comment_takes_line comment delimiter single left)
  · intro closed front behind closedFront
    have free : '\n' ∉ withoutDelimited comment := fun newline =>
      single ((without_delimited_sublist comment).subset newline)
    rw [compact, without_delimited_comment front comment behind closedFront closed,
      kept_lines_comment _ _ _ free, compact, without_delimited_gap '\n' rfl _ _ closedFront]

theorem comment_passes_with_marks :
    let comment := "see src/**/*.ts, was /* x */ before".toList
    '\n' ∉ comment ∧ ∀ front behind, leftOpen front = none →
      compact (withLineComment front comment behind) = compact (front ++ '\n' :: behind) := by
  intro comment
  have single : '\n' ∉ comment := by decide +kernel
  exact ⟨single, (comment_passes_iff comment single).mpr (by decide +kernel)⟩

-- A line of comment with an opener takes the code below it away.
theorem comment_hides_code :
    let front := "function f() \x7b".toList
    let comment := "routes: /* below src".toList
    let behind := "  return 1\n\x7d\n/* end */\n".toList
    leftOpen front = none ∧ '\n' ∉ comment ∧ '\r' ∉ comment ∧
      compact (front ++ '\n' :: behind) = "function f() \x7b\n\treturn 1\n\x7d".toList ∧
      compact (withLineComment front comment behind) = "function f() \x7b".toList := by
  decide +kernel

end BlockSearch.Compaction
