import BlockSearch.Text.Basic

set_option autoImplicit false

namespace BlockSearch

inductive OffsetFault where
  | slice (start stop : Nat)
  | distance (start stop : Nat)
deriving DecidableEq, Repr

abbrev Checked := Except OffsetFault

structure Span where
  start : Nat
  stop : Nat
deriving DecidableEq, Repr

def distance (start stop : Nat) : Checked Nat :=
  if start ≤ stop then .ok (stop - start) else .error (.distance start stop)

theorem checked_bind {α β : Type} (value : α) (next : α → Checked β) : (Except.ok value >>= next) = next value := rfl

theorem distance_add (start length : Nat) : distance start (start + length) = .ok length := by
  rw [distance, if_pos (Nat.le_add_right _ _), Nat.add_sub_cancel_left]

namespace Text

def newlineByte : UInt8 := 10

def firstNewline (bytes : Bytes) : Option Nat := bytes.idxOf? newlineByte

def lastNewline (bytes : Bytes) : Option Nat :=
  (bytes.reverse.idxOf? newlineByte).map fun behind => bytes.length - 1 - behind

-- The text in front of an offset and behind it, if a character begins or the text ends there.
def cutAt (offset : Nat) (text : Text) : Option (Text × Text) :=
  if offset = 0 then some ([], text)
  else match text with
    | [] => none
    | c :: rest =>
        if c.utf8Size ≤ offset then (cutAt (offset - c.utf8Size) rest).map fun (front, back) => (c :: front, back)
        else none

def slice (text : Text) (start stop : Nat) : Checked Text :=
  match cutAt stop text with
  | some (front, _) =>
      match cutAt start front with
      | some (_, part) => .ok part
      | none => .error (.slice start stop)
  | none => .error (.slice start stop)

theorem cut_at_size (front back : Text) : cutAt (size front) (front ++ back) = some (front, back) := by
  induction front with
  | nil =>
      unfold cutAt
      rfl
  | cons c front ih =>
      have wide := Char.utf8Size_pos c
      rw [List.cons_append, size_cons, cutAt, if_neg (by omega)]
      simp only [Nat.le_add_right, if_true, Nat.add_sub_cancel_left, ih, Option.map_some]

theorem cut_at_eq (offset : Nat) (text front back : Text) (cut : cutAt offset text = some (front, back)) :
    text = front ++ back ∧ size front = offset := by
  induction text generalizing offset front with
  | nil =>
      rw [cutAt] at cut
      split at cut
      · rename_i zero
        obtain ⟨rfl, rfl⟩ := Prod.mk.inj (Option.some.inj cut)
        exact ⟨rfl, zero.symm⟩
      · cases cut
  | cons c rest ih =>
      rw [cutAt] at cut
      split at cut
      · rename_i zero
        obtain ⟨rfl, rfl⟩ := Prod.mk.inj (Option.some.inj cut)
        exact ⟨rfl, zero.symm⟩
      · simp only at cut
        split at cut
        · rename_i fits
          obtain ⟨⟨inner, last⟩, found, same⟩ := Option.map_eq_some_iff.mp cut
          obtain ⟨rfl, rfl⟩ := Prod.mk.inj same
          obtain ⟨rfl, length⟩ := ih _ inner found
          refine ⟨rfl, ?_⟩
          rw [size_cons, length]
          omega
        · cases cut

theorem slice_divided (front part back : Text) :
    slice (front ++ (part ++ back)) (size front) (size front + size part) = .ok part := by
  have outer := cut_at_size (front ++ part) back
  rw [size_append, List.append_assoc] at outer
  simp only [slice, outer, cut_at_size]

theorem slice_front (front back : Text) : slice (front ++ back) 0 (size front) = .ok front := by
  have whole := slice_divided [] front back
  rwa [List.nil_append, show size [] = 0 from rfl, Nat.zero_add] at whole

theorem slice_back (front back : Text) : slice (front ++ back) (size front) (size (front ++ back)) = .ok back := by
  have whole := slice_divided front back []
  rwa [List.append_nil, ← size_append] at whole

theorem slice_eq_ok_iff (text part : Text) (start stop : Nat) :
    slice text start stop = .ok part ↔
      ∃ front back, text = front ++ (part ++ back) ∧ start = size front ∧ stop = size front + size part := by
  constructor
  · intro given
    unfold slice at given
    split at given
    · rename_i before back outer
      split at given
      · rename_i front inside inner
        obtain rfl := Except.ok.inj given
        obtain ⟨rfl, rfl⟩ := cut_at_eq stop text before back outer
        obtain ⟨rfl, rfl⟩ := cut_at_eq start before front inside inner
        exact ⟨front, back, List.append_assoc _ _ _, rfl, size_append _ _⟩
      · cases given
    · cases given
  · rintro ⟨front, back, rfl, rfl, rfl⟩
    exact slice_divided front part back

def IsBoundary (text : Text) (offset : Nat) : Prop := ∃ front back, text = front ++ back ∧ size front = offset

theorem boundary_le (text : Text) (offset : Nat) (boundary : IsBoundary text offset) : offset ≤ size text := by
  obtain ⟨front, back, rfl, rfl⟩ := boundary
  rw [size_append]
  exact Nat.le_add_right _ _

theorem slice_given_iff (text : Text) (start stop : Nat) :
    (∃ part, slice text start stop = .ok part) ↔
      start ≤ stop ∧ stop ≤ size text ∧ IsBoundary text start ∧ IsBoundary text stop := by
  simp only [slice_eq_ok_iff]
  constructor
  · rintro ⟨part, front, back, rfl, rfl, rfl⟩
    have last : IsBoundary (front ++ (part ++ back)) (size front + size part) :=
      ⟨front ++ part, back, (List.append_assoc _ _ _).symm, size_append _ _⟩
    exact ⟨Nat.le_add_right _ _, boundary_le _ _ last, ⟨front, _, rfl, rfl⟩, last⟩
  · rintro ⟨ordered, -, ⟨front, rest, whole, rfl⟩, ⟨upto, back, same, rfl⟩⟩
    rcases List.append_eq_append_iff.mp (whole.symm.trans same) with ⟨part, rfl, -⟩ | ⟨part, rfl, behind⟩
    · exact ⟨part, front, back, by rw [same, List.append_assoc], rfl, size_append _ _⟩
    · -- The front reaches no further than the part, so nothing is between their ends.
      have reached : size upto = size (upto ++ part) + size [] := Nat.le_antisymm (by rw [size_append]; omega) ordered
      exact ⟨[], upto ++ part, rest, by rw [whole, List.nil_append], rfl, reached⟩

-- Offsets within a character, in the wrong order or behind the end are faults; the empty part at the end is none.
example :
    [(0, 1), (2, 0), (3, 4), (0, 2), (3, 3)].map (fun (start, stop) => slice "é\n".toList start stop) =
      [.error (.slice 0 1), .error (.slice 2 0), .error (.slice 3 4), .ok ['é'], .ok []] := rfl

theorem utf8_length (text : Text) : text.utf8.length = size text := by
  induction text with
  | nil => rfl
  | cons c rest ih =>
      rw [utf8, List.flatMap_cons, List.length_append, String.length_utf8EncodeChar, ← utf8, ih, size_cons]

theorem last_newline_lt (bytes : Bytes) (offset : Nat) (found : lastNewline bytes = some offset) :
    offset < bytes.length := by
  obtain ⟨behind, last, rfl⟩ := Option.map_eq_some_iff.mp found
  have inside := (List.findIdx?_eq_some_iff_findIdx_eq.mp last).1
  rw [List.length_reverse] at inside
  omega

end Text

end BlockSearch
