import BlockSearch.Block.Finder
import BlockSearch.Text.Slice

set_option autoImplicit false

namespace BlockSearch.Block.Spans

open BlockSearch.Symbol (Pattern Occurrence)

section Lines

variable (content : Text)

def lineEnd (offset : Nat) : Checked Nat := do
  let behind ← content.slice offset content.size
  match Text.firstNewline behind.utf8 with
  | some length => pure (offset + length)
  | none => pure content.size

def lineStart (offset : Nat) : Checked Nat := do
  let above ← content.slice 0 offset
  match Text.lastNewline above.utf8 with
  | some last => pure (last + 1)
  | none => pure 0

def nextLine (stop : Nat) : Checked (Option Span) :=
  if content.size ≤ stop then pure none
  else do
    let next ← lineEnd content (stop + 1)
    pure (some ⟨stop + 1, next⟩)

theorem line_end_ge (offset stop : Nat) (found : lineEnd content offset = .ok stop) : offset ≤ stop := by
  unfold lineEnd at found
  cases behind : content.slice offset content.size with
  | error fault =>
      rw [behind] at found
      cases found
  | ok rest =>
      obtain ⟨front, back, -, rfl, length⟩ := (Text.slice_eq_ok_iff _ _ _ _).mp behind
      rw [behind, checked_bind] at found
      split at found
      · obtain rfl := Except.ok.inj found
        exact Nat.le_add_right _ _
      · obtain rfl := Except.ok.inj found
        omega

theorem next_line_further (stop : Nat) (line : Span) (found : nextLine content stop = .ok (some line)) :
    stop < content.size ∧ stop < line.stop := by
  unfold nextLine at found
  split at found
  · cases found
  · rename_i inside
    cases ending : lineEnd content (stop + 1) with
    | error fault =>
        rw [ending] at found
        cases found
    | ok next =>
        rw [ending, checked_bind] at found
        obtain rfl := Option.some.inj (Except.ok.inj found)
        exact ⟨Nat.lt_of_not_le inside, line_end_ge content _ _ ending⟩

theorem line_start_le (offset start : Nat) (found : lineStart content offset = .ok start) : start ≤ offset := by
  unfold lineStart at found
  cases front : content.slice 0 offset with
  | error fault =>
      rw [front] at found
      cases found
  | ok above =>
      obtain ⟨before, back, -, none, length⟩ := (Text.slice_eq_ok_iff _ _ _ _).mp front
      rw [front, checked_bind] at found
      split at found
      · rename_i last newline
        have inside := Text.last_newline_lt _ _ newline
        rw [Text.utf8_length] at inside
        obtain rfl := Except.ok.inj found
        omega
      · obtain rfl := Except.ok.inj found
        exact Nat.zero_le _

end Lines

section Line

variable (indentation line : Text)

def indentationOf : Checked Text := do
  let width ← distance (Text.size (line.dropWhile CharClass.isIndent)) line.size
  line.slice 0 width

def isDeeper : Checked Bool :=
  if Text.startsWith indentation line then do
    let rest ← line.slice indentation.size line.size
    pure (rest.head?.any CharClass.isIndent)
  else pure false

def closes : Checked Bool := do
  if (← indentationOf line) == indentation then
    let rest ← line.slice indentation.size line.size
    pure (rest.head? == some '}')
  else pure false

end Line

section Grow

variable (content : Text)

def openingStop (headingStop : Nat) (behind : Text) : Checked (Option Nat) :=
  if behind.contains '{' then pure (some headingStop)
  else do
    match ← nextLine content headingStop with
    | none => pure none
    | some next =>
        let line ← content.slice next.start next.stop
        pure (if opensBrace line then some next.stop else none)

-- Goes over the lines behind `cursor`; `stop` is the end of the last deeper one, or of the line that opens the block.
def bodyStop (indentation : Text) (stop cursor : Nat) : Checked Nat :=
  match _next : nextLine content cursor with
  | .error fault => .error fault
  | .ok none => .ok stop
  | .ok (some next) => do
      let line ← content.slice next.start next.stop
      if Text.isBlankLine line then bodyStop indentation stop next.stop
      else if ← isDeeper indentation line then bodyStop indentation next.stop next.stop
      else pure stop
termination_by content.size - cursor
decreasing_by
  all_goals
    have further := next_line_further content cursor next _next
    omega

def closingStop (indentation : Text) (stop cursor : Nat) : Checked Nat :=
  match _next : nextLine content cursor with
  | .error fault => .error fault
  | .ok none => .ok stop
  | .ok (some next) => do
      let line ← content.slice next.start next.stop
      if Text.isBlankLine line then closingStop indentation stop next.stop
      else if ← closes indentation line then pure (next.start + indentation.size + 1)
      else pure stop
termination_by content.size - cursor
decreasing_by
  have further := next_line_further content cursor next _next
  omega

-- Goes up over comment lines from the line that begins at `top`, but to none that begins before the floor.
def commentsStart (floor top : Nat) : Checked Nat :=
  if top = 0 then pure top
  else match _above : distance 1 top with
    | .error fault => .error fault
    | .ok stop =>
        match _start : lineStart content stop with
        | .error fault => .error fault
        | .ok start =>
            if start < floor then pure top
            else do
              let line ← content.slice start stop
              if isCommentLine line then commentsStart floor start else pure top
termination_by top
decreasing_by
  have upto := line_start_le content stop start _start
  unfold distance at _above
  split at _above
  · have stops := Except.ok.inj _above
    omega
  · cases _above

def grow (headingStart symbolStop floor : Nat) : Checked (Option Span) := do
  let headingStop ← lineEnd content symbolStop
  let indentation ← indentationOf (← content.slice headingStart headingStop)
  let behind ← content.slice symbolStop headingStop
  match ← openingStop content headingStop behind with
  | none => pure none
  | some opening =>
      let body ← bodyStop content indentation opening opening
      let stop ← closingStop content indentation body body
      let start ← commentsStart content floor headingStart
      pure (some ⟨start, stop⟩)

end Grow

section Find

def ofOccurrence (occurrence : Occurrence) : Span :=
  ⟨occurrence.place.offset, occurrence.place.offset + occurrence.symbol.size⟩

variable (content : Text)

def hasCleanEdges (found : Span) : Checked Bool := do
  let before ← content.slice 0 found.start
  let behind ← content.slice found.stop content.size
  pure (!before.getLast?.any rejectedBefore.contains && !behind.head?.any rejectedAfter.contains)

def spanAt (limits : Limits) (floor : Nat) (found : Span) : Checked (Option Span) :=
  if found.start < floor then pure none
  else do
    let headingStart ← lineStart content found.start
    if headingStart < floor then pure none
    else if limits.maxColumn < (← distance headingStart found.start) then pure none
    else if !(← hasCleanEdges content found) then pure none
    else match ← grow content headingStart found.stop floor with
      | none => pure none
      | some span => pure (if limits.maxSize < (← distance span.start span.stop) then none else some span)

structure LineCount where
  offset : Nat
  lines : Nat
deriving DecidableEq, Repr

def LineCount.upTo (count : LineCount) (offset : Nat) : Checked LineCount := do
  let passed ← content.slice count.offset offset
  pure ⟨offset, count.lines + passed.utf8.count Text.newlineByte⟩

def collect (limits : Limits) (floor : Nat) (count : LineCount) : List Span → Checked (List Block)
  | [] => pure []
  | found :: rest => do
      match ← spanAt content limits floor found with
      | none => collect limits floor count rest
      | some span =>
          let text := Text.dropEndWhile (· == '\r') (← content.slice span.start span.stop)
          let reached ← count.upTo content span.start
          let block : Block :=
            { firstLine := reached.lines + 1
              lastLine := reached.lines + 1 + text.utf8.count Text.newlineByte
              offset := found.start
              symbol := ← content.slice found.start found.stop
              text := text }
          let later ← collect limits span.stop reached rest
          pure (block :: later)

def find (limits : Limits) (pattern : Pattern) : Checked (List Block) :=
  match Text.firstNewline content.utf8 with
  | none => pure []
  | some _ => collect content limits 0 ⟨0, 0⟩ ((pattern.occurrences content).map ofOccurrence)

end Find

end BlockSearch.Block.Spans
