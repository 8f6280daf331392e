import BlockSearch.Glob.Matching
import BlockSearch.Glob.Reader
import BlockSearch.Proofs.Text.Ascii

set_option autoImplicit false

namespace BlockSearch.Glob

theorem encode_slashes (c : Char) : (String.utf8EncodeChar c).count slash = if c = '/' then 1 else 0 := by
  have short : '/'.utf8Size = 1 := by decide
  by_cases one : c.utf8Size = 1
  · have same : c.val.toUInt8 = slash ↔ c = '/' :=
      ⟨Text.narrow_injective c one '/' short, fun written => congrArg (fun c : Char => c.val.toUInt8) written⟩
    rw [String.utf8EncodeChar_eq_singleton one, List.count_singleton]
    simp only [beq_iff_eq, same]
  · have other : c ≠ '/' := by
      rintro rfl
      exact one short
    rw [if_neg other, List.count_eq_zero]
    exact Text.narrow_not_wide '/' short c one

theorem utf8_slashes (text : Text) : (Text.utf8 text).count slash = text.count '/' := by
  induction text with
  | nil => rfl
  | cons c rest ih =>
      simp only [Text.utf8, List.flatMap_cons, List.count_append, encode_slashes] at ih ⊢
      rw [ih, List.count_cons]
      simp only [beq_iff_eq, Nat.add_comm]

mutual
def Piece.isFlat : Piece → Bool
  | .literal _ => true
  | .anyByte => true
  | .anyRun => true
  | .anyAbove => false
  | .anyBelow => false
  | .anyBetween => false
  | .byteClass negated ranges => inRanges (classRanges ranges) slash == negated
  | .alternatives branches => anyFlat branches

def allFlat : List Piece → Bool
  | [] => true
  | piece :: pieces => piece.isFlat && allFlat pieces

def anyFlat : List (List Piece) → Bool
  | [] => true
  | branch :: branches => allFlat branch && anyFlat branches
end

def isFlat (glob : Glob) : Bool := allFlat glob.pieces

mutual
def Piece.slashes : Piece → Nat
  | .literal c => if c = '/' then 1 else 0
  | .alternatives branches => anySlashes branches
  | _ => 0

def allSlashes : List Piece → Nat
  | [] => 0
  | piece :: pieces => piece.slashes + allSlashes pieces

def anySlashes : List (List Piece) → Nat
  | [] => 0
  | branch :: branches => allSlashes branch + anySlashes branches
end

theorem after_bytes_eq (lead bytes rest : Bytes) (found : afterBytes lead bytes = some rest) :
    bytes = lead ++ rest := by
  induction lead generalizing bytes with
  | nil => simpa [afterBytes] using found
  | cons a lead ih =>
      cases bytes with
      | nil => simp [afterBytes] at found
      | cons b bytes =>
          by_cases same : a = b
          · simp only [afterBytes, if_pos same] at found
            rw [ih bytes found, same, List.cons_append]
          · simp [afterBytes, same] at found

-- Some bytes with so many slashes at most, and a rest of which the test holds.
def Takes (next : Bytes → Bool) (bytes : Bytes) (count : Nat) : Prop :=
  ∃ taken rest, bytes = taken ++ rest ∧ next rest = true ∧ taken.count slash ≤ count

theorem some_within_takes (next : Bytes → Bool) (bytes : Bytes) (found : someWithin next bytes = true) :
    Takes next bytes 0 := by
  induction bytes with
  | nil => exact ⟨[], [], rfl, found, Nat.le_refl 0⟩
  | cons byte rest ih =>
      simp only [someWithin, Bool.or_eq_true, Bool.and_eq_true, bne_iff_ne, ne_eq] at found
      rcases found with here | ⟨other, later⟩
      · exact ⟨[], _, rfl, here, Nat.le_refl 0⟩
      · obtain ⟨taken, left, cut, holds, few⟩ := ih later
        exact ⟨byte :: taken, left, by rw [cut, List.cons_append], holds, by rwa [List.count_cons_of_ne other]⟩

mutual
theorem accepts_takes (next : Bytes → Bool) (piece : Piece) (bytes : Bytes) (flat : piece.isFlat = true)
    (found : piece.accepts next bytes = true) : Takes next bytes piece.slashes := by
  cases piece with
  | literal c =>
      simp only [Piece.accepts] at found
      split at found
      · rename_i rest lead
        exact ⟨_, rest, after_bytes_eq _ _ _ lead, found, Nat.le_of_eq (encode_slashes c)⟩
      · simp at found
  | anyByte =>
      cases bytes with
      | nil => simp [Piece.accepts] at found
      | cons byte rest =>
          simp only [Piece.accepts, Bool.and_eq_true, bne_iff_ne, ne_eq] at found
          exact ⟨[byte], rest, rfl, found.2, by simp [found.1]⟩
  | anyRun => exact some_within_takes next bytes found
  | anyAbove => simp [Piece.isFlat] at flat
  | anyBelow => simp [Piece.isFlat] at flat
  | anyBetween => simp [Piece.isFlat] at flat
  | byteClass negated ranges =>
      cases bytes with
      | nil => simp [Piece.accepts] at found
      | cons byte rest =>
          simp only [Piece.accepts, Bool.and_eq_true, bne_iff_ne, ne_eq] at found
          have other : byte ≠ slash := by
            rintro rfl
            exact found.1 (beq_iff_eq.mp flat)
          exact ⟨[byte], rest, rfl, found.2, by simp [other]⟩
  | alternatives branches => exact any_accepts_takes next branches bytes flat found

theorem all_accept_takes (next : Bytes → Bool) (pieces : List Piece) (bytes : Bytes) (flat : allFlat pieces = true)
    (found : allAccept next pieces bytes = true) : Takes next bytes (allSlashes pieces) := by
  cases pieces with
  | nil => exact ⟨[], bytes, rfl, found, Nat.le_refl 0⟩
  | cons piece pieces =>
      simp only [allFlat, Bool.and_eq_true] at flat
      obtain ⟨front, between, cut, behind, few⟩ := accepts_takes _ piece bytes flat.1 found
      obtain ⟨back, rest, last, holds, fewer⟩ := all_accept_takes next pieces between flat.2 behind
      refine ⟨front ++ back, rest, by rw [cut, last, List.append_assoc], holds, ?_⟩
      rw [List.count_append]
      exact Nat.add_le_add few fewer

theorem any_accepts_takes (next : Bytes → Bool) (branches : List (List Piece)) (bytes : Bytes)
    (flat : anyFlat branches = true) (found : anyAccepts next branches bytes = true) :
    Takes next bytes (anySlashes branches) := by
  cases branches with
  | nil => simp [anyAccepts] at found
  | cons branch branches =>
      simp only [anyFlat, Bool.and_eq_true] at flat
      simp only [anyAccepts, Bool.or_eq_true] at found
      rcases found with here | later
      · obtain ⟨taken, rest, cut, holds, few⟩ := all_accept_takes next branch bytes flat.1 here
        exact ⟨taken, rest, cut, holds, Nat.le_trans few (Nat.le_add_right _ _)⟩
      · obtain ⟨taken, rest, cut, holds, few⟩ := any_accepts_takes next branches bytes flat.2 later
        exact ⟨taken, rest, cut, holds, Nat.le_trans few (Nat.le_add_left _ _)⟩
end

theorem is_match_slashes (glob : Glob) (path : Text) (flat : glob.isFlat = true) (found : glob.isMatch path = true) :
    path.count '/' ≤ allSlashes glob.pieces := by
  simp only [isMatch, matchesBytes, Bool.and_eq_true] at found
  have several : glob.pieces ≠ [.anyAbove] := by
    intro same
    simp [isFlat, same, allFlat, Piece.isFlat] at flat
  have whole := found.2
  rw [matches_whole_eq _ _ several] at whole
  obtain ⟨taken, rest, cut, none, few⟩ := all_accept_takes _ _ _ flat whole
  rw [List.isEmpty_iff.mp none, List.append_nil] at cut
  rwa [← utf8_slashes, cut]

theorem all_slashes_append (a b : List Piece) : allSlashes (a ++ b) = allSlashes a + allSlashes b := by
  induction a with
  | nil => exact (Nat.zero_add _).symm
  | cons piece pieces ih => rw [List.cons_append, allSlashes, allSlashes, ih, Nat.add_assoc]

theorem all_slashes_reverse (pieces : List Piece) : allSlashes pieces.reverse = allSlashes pieces := by
  induction pieces with
  | nil => rfl
  | cons piece pieces ih =>
      rw [List.reverse_cons, all_slashes_append, ih, allSlashes, allSlashes, allSlashes, Nat.add_zero, Nat.add_comm]

theorem any_slashes_append (a b : List (List Piece)) : anySlashes (a ++ b) = anySlashes a + anySlashes b := by
  induction a with
  | nil => exact (Nat.zero_add _).symm
  | cons branch branches ih => rw [List.cons_append, anySlashes, anySlashes, ih, Nat.add_assoc]

theorem any_slashes_reverse (branches : List (List Piece)) :
    anySlashes (branches.map List.reverse).reverse = anySlashes branches := by
  induction branches with
  | nil => rfl
  | cons branch branches ih =>
      rw [List.map_cons, List.reverse_cons, any_slashes_append, ih, anySlashes, anySlashes, anySlashes, Nat.add_zero,
        all_slashes_reverse, Nat.add_comm]

def Level.slashes (level : Level) : Nat := anySlashes level.finished + allSlashes level.current

def slashesAround : List Level → Nat
  | [] => 0
  | level :: outer => level.slashes + slashesAround outer

namespace State

def slashes (state : State) : Nat := state.level.slashes + slashesAround state.outer

theorem push_slashes (state : State) (piece : Piece) : (state.push piece).slashes = state.slashes + piece.slashes := by
  simp only [slashes, push, Level.slashes, allSlashes]
  omega

theorem double_star_slashes (state : State) (piece : Piece) (none : piece.slashes = 0) :
    (state.doubleStar piece).slashes ≤ state.slashes := by
  unfold doubleStar
  split
  · exact Nat.le_refl _
  · exact Nat.le_refl _
  · rename_i last before current
    simp only [slashes, Level.slashes, current, allSlashes, none]
    omega
  · rw [push_slashes, none]
    exact Nat.le_refl _

theorem comma_slashes (state : State) : state.comma.slashes = state.slashes := by
  unfold comma
  split
  · simp only [slashes, Level.slashes, anySlashes, allSlashes]
    omega
  · rw [push_slashes]
    rfl

theorem open_slashes (state : State) : state.openBraces.slashes = state.slashes := by
  simp [slashes, openBraces, Level.slashes, slashesAround, anySlashes, allSlashes]

theorem close_slashes (state closed : State) (done : state.closeBraces = .ok closed) :
    closed.slashes = state.slashes := by
  unfold closeBraces at done
  split at done
  · simp at done
  · rename_i level outer above
    simp only [Except.ok.injEq] at done
    rw [← done, push_slashes, Piece.slashes, any_slashes_reverse]
    simp only [slashes, Level.slashes, anySlashes, above, slashesAround]
    omega

end State

theorem read_star_slashes (state next : State) (rest : Text) (busy : Nat)
    (read : readStar state rest = .ok (busy, next)) : next.slashes ≤ state.slashes := by
  have pushed (piece : Piece) (none : piece.slashes = 0) : (state.push piece).slashes ≤ state.slashes := by
    rw [State.push_slashes, none]
    exact Nat.le_refl _
  have stars : (state.pushAll [.anyRun, .anyRun]).slashes ≤ state.slashes := by
    simp [State.pushAll, State.push_slashes, Piece.slashes]
  have below := state.double_star_slashes .anyBelow rfl
  have between := state.double_star_slashes .anyBetween rfl
  have above := pushed .anyAbove rfl
  have run := pushed .anyRun rfl
  unfold readStar at read
  split at read
  · split at read
    · split at read <;> cases read
      · exact above
      · exact above
      · exact stars
    · split at read
      · cases read
        exact stars
      · split at read
        · cases read
          exact below
        · cases read
          exact between
        · split at read <;> cases read
          · exact below
          · exact stars
  · cases read
    exact run

theorem read_class_slashes (dialect : Dialect) (state next : State) (rest : Text) (busy : Nat)
    (read : readClass dialect state rest = .ok (busy, next)) : next.slashes = state.slashes := by
  unfold readClass at read
  dsimp only at read
  split at read
  · cases read
    exact State.push_slashes state _
  · split at read
    · cases read
      exact State.push_slashes state (.literal '[')
    · cases read
  · cases read

-- A step adds no more slashes to what was read than it takes off the text.
theorem read_char_slashes (dialect : Dialect) (state next : State) (c : Char) (rest : Text) (busy : Nat)
    (read : readChar dialect state c rest = .ok (busy, next)) :
    next.slashes ≤ state.slashes + ((c :: rest).take (busy + 1)).count '/' := by
  have kept (same : next.slashes ≤ state.slashes) :
      next.slashes ≤ state.slashes + ((c :: rest).take (busy + 1)).count '/' :=
    Nat.le_trans same (Nat.le_add_right _ _)
  unfold readChar at read
  split at read
  · cases read
    exact kept (Nat.le_of_eq (State.push_slashes state .anyByte))
  · split at read
    · exact kept (read_star_slashes state next rest busy read)
    · split at read
      · exact kept (Nat.le_of_eq (read_class_slashes dialect state next rest busy read))
      · split at read
        · cases read
          exact kept (Nat.le_of_eq state.open_slashes)
        · split at read
          · cases closed : state.closeBraces with
            | error cause => simp [closed, Except.map] at read
            | ok inner =>
                simp only [closed, Except.map, Except.ok.injEq, Prod.mk.injEq] at read
                exact kept (Nat.le_of_eq (read.2 ▸ state.close_slashes inner closed))
          · split at read
            · cases read
              exact kept (Nat.le_of_eq state.comma_slashes)
            · split at read
              · cases rest with
                | nil => simp [readEscape] at read
                | cons d others =>
                    cases read
                    rw [State.push_slashes, Piece.slashes]
                    simp only [List.take_succ_cons, List.take_zero, List.count_cons, List.count_nil, beq_iff_eq]
                    omega
              · cases read
                rw [State.push_slashes, Piece.slashes]
                simp [List.count_cons]

theorem read_all_slashes (dialect : Dialect) (busy : Nat) (state last : State) (text : Text)
    (read : readAll dialect busy state text = .ok last) :
    last.slashes ≤ state.slashes + (text.drop busy).count '/' := by
  induction text generalizing busy state with
  | nil =>
      cases busy <;> cases read <;> exact Nat.le_add_right _ _
  | cons c rest ih =>
      cases busy with
      | succ busy => exact ih busy { state with previous := some c } read
      | zero =>
          simp only [readAll] at read
          split at read
          · rename_i busy next step
            have first := read_char_slashes dialect state next c rest busy step
            have others := ih busy { next with previous := some c } read
            have cut := congrArg (List.count '/') (List.take_append_drop (busy + 1) (c :: rest))
            rw [List.count_append, List.drop_succ_cons] at cut
            rw [List.drop_zero, ← cut]
            exact Nat.le_trans others (Nat.le_trans (Nat.add_le_add_right first _) (Nat.le_of_eq (Nat.add_assoc _ _ _)))
          · cases read

theorem read_slashes (dialect : Dialect) (source : Text) (glob : Glob) (written : dialect.emptyAlternatives = true)
    (made : read dialect source = .ok glob) : allSlashes glob.pieces ≤ source.count '/' := by
  unfold read at made
  split at made
  · cases made
  · rename_i last whole
    split at made
    · cases made
    · cases made
      have bound := read_all_slashes dialect 0 .start last source whole
      simp only [State.slashes, State.start, Level.slashes, anySlashes, allSlashes,
        slashesAround, List.drop_zero] at bound
      simp only [all_slashes_reverse]
      omega

end BlockSearch.Glob
