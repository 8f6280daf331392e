import BlockSearch.Text.Basic

/-!
Comments with an opening and a closing mark: `/* ... */`, and documentation strings between triple quotes. A slash and
star open a comment only at the beginning of the text, behind a blank, or right behind a comment that was removed,
so a path such as `src/**/*.ts` keeps its stars. Main fact: each removal leaves a shorter text to read.
-/

set_option autoImplicit false

namespace BlockSearch.Compaction

inductive Delimiter where
  | block
  | documentation
deriving DecidableEq, Repr

namespace Delimiter

def opener : Delimiter → Text
  | .block => ['/', '*']
  | .documentation => ['\x22', '\x22', '\x22']

def closer : Delimiter → Text
  | .block => ['*', '/']
  | .documentation => ['\x22', '\x22', '\x22']

theorem closer_length_pos (delimiter : Delimiter) : 0 < delimiter.closer.length := by
  cases delimiter <;> decide

end Delimiter

def isGap (c : Char) : Bool := c == ' ' || c == '\t' || c == '\n' || c == '\r'

-- The text around the first block opener; `free` says whether one may stand at the very beginning.
def splitAtBlock (free : Bool) : Text → Option (Text × Text)
  | [] => none
  | c :: rest =>
      match if free then Text.afterLead Delimiter.block.opener (c :: rest) else none with
      | some body => some ([], body)
      | none => (splitAtBlock (isGap c) rest).map fun (front, body) => (c :: front, body)

def firstOpening (text : Text) : Option (Text × Delimiter × Text) :=
  match splitAtBlock true text, Text.splitAtFirst Delimiter.documentation.opener text with
  | some (front, body), some (other, inner) =>
      if front.length ≤ other.length then some (front, .block, body) else some (other, .documentation, inner)
  | some (front, body), none => some (front, .block, body)
  | none, some (other, inner) => some (other, .documentation, inner)
  | none, none => none

theorem split_at_block_eq (free : Bool) (text front body : Text) (found : splitAtBlock free text = some (front, body)) :
    text = front ++ (Delimiter.block.opener ++ body) := by
  induction text generalizing free front with
  | nil => simp [splitAtBlock] at found
  | cons c rest ih =>
      simp only [splitAtBlock] at found
      split at found
      · rename_i after lead
        simp only [Option.some.injEq, Prod.mk.injEq] at found
        cases free with
        | false => simp at lead
        | true =>
            rw [← found.1, ← found.2, List.nil_append]
            exact Text.after_lead_eq _ (c :: rest) after (by simpa using lead)
      · obtain ⟨⟨inner, last⟩, inside, same⟩ := Option.map_eq_some_iff.mp found
        simp only [Prod.mk.injEq] at same
        rw [← same.1, List.cons_append, ih (isGap c) inner (by rw [inside, same.2])]

theorem first_opening_eq (text front body : Text) (delimiter : Delimiter)
    (found : firstOpening text = some (front, delimiter, body)) :
    text = front ++ (delimiter.opener ++ body) := by
  unfold firstOpening at found
  split at found
  · rename_i leading after other inner block documentation
    split at found
    · simp only [Option.some.injEq, Prod.mk.injEq] at found
      obtain ⟨rfl, rfl, rfl⟩ := found
      exact split_at_block_eq true text _ _ block
    · simp only [Option.some.injEq, Prod.mk.injEq] at found
      obtain ⟨rfl, rfl, rfl⟩ := found
      exact Text.split_at_first_eq _ text _ _ documentation
  · rename_i leading after block documentation
    simp only [Option.some.injEq, Prod.mk.injEq] at found
    obtain ⟨rfl, rfl, rfl⟩ := found
    exact split_at_block_eq true text _ _ block
  · rename_i other inner block documentation
    simp only [Option.some.injEq, Prod.mk.injEq] at found
    obtain ⟨rfl, rfl, rfl⟩ := found
    exact Text.split_at_first_eq _ text _ _ documentation
  · simp at found

theorem after_comment_shorter (text front body inner rest : Text) (delimiter : Delimiter)
    (opening : firstOpening text = some (front, delimiter, body))
    (closing : Text.splitAtFirst delimiter.closer body = some (inner, rest)) : rest.length < text.length := by
  have outer := congrArg List.length (first_opening_eq text front body delimiter opening)
  have within := congrArg List.length (Text.split_at_first_eq _ body inner rest closing)
  have closer := delimiter.closer_length_pos
  simp only [List.length_append] at outer within
  omega

-- Removes each comment up to its closer. An opener without a closer stays, with all that follows it.
def withoutDelimited (text : Text) : Text :=
  match _opening : firstOpening text with
  | none => text
  | some (front, delimiter, body) =>
      match _closing : Text.splitAtFirst delimiter.closer body with
      | some (_, rest) => front ++ withoutDelimited rest
      | none => text
termination_by text.length
decreasing_by exact after_comment_shorter text front body _ rest delimiter _opening _closing

end BlockSearch.Compaction
