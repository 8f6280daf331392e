import BlockSearch.Proofs.Glob.Rests
import BlockSearch.Proofs.Glob.Tokens

set_option autoImplicit false

namespace BlockSearch.Glob

def lastRead (busy : Nat) (state : State) (text : Text) : Option Char := (text.take busy).getLast?.or state.previous

-- The last piece of the open branch, by the last character that belongs to it and by what follows.
structure Settled (busy : Nat) (state : State) (text : Text) : Prop where
  above : state.level.current.head? = some .anyAbove → state.level.current = [.anyAbove]
  below : state.level.current.head? = some .anyBelow →
    (text.drop busy).head? = none ∨ (text.drop busy).head? = some ',' ∨ (text.drop busy).head? = some '}'
  slash : lastRead busy state text = some '/' →
    state.level.current.head? = some (.literal '/') ∨ state.level.current.head? = some .anyBetween ∨
      state.level.current.head? = some .anyAbove
  named : ∀ c, lastRead busy state text = some c → c ≠ '/' → c ≠ '*' →
    state.level.current.head? ≠ some .anyAbove ∧ (state.level.current.head? = some (.literal '.') → c = '.')

section Steps

variable {busy : Nat} {state : State} {text : Text}

theorem Settled.of_empty (empty : state.level.current = []) (noSlash : lastRead busy state text ≠ some '/') :
    Settled busy state text := by
  have none : state.level.current.head? = none := by rw [empty]; rfl
  refine ⟨?_, ?_, fun slash => absurd slash noSlash, ?_⟩ <;> simp [none]

theorem Settled.of_literal (c : Char) (last : state.level.current.head? = some (.literal c))
    (read : lastRead busy state text = some c) : Settled busy state text := by
  refine ⟨by simp [last], by simp [last], ?_, ?_⟩
  · intro slash
    rw [read] at slash
    exact .inl (by rw [last, Option.some.inj slash])
  · intro d same _ _
    rw [read] at same
    obtain rfl := Option.some.inj same
    simp [last]

theorem Settled.of_other (piece : Piece) (last : state.level.current.head? = some piece) (noAbove : piece ≠ .anyAbove)
    (noBelow : piece ≠ .anyBelow) (noPoint : piece ≠ .literal '.') (noSlash : lastRead busy state text ≠ some '/') :
    Settled busy state text := by
  refine ⟨?_, ?_, fun slash => absurd slash noSlash, ?_⟩ <;> simp [last, noAbove, noBelow, noPoint]

theorem Settled.passed (c : Char) (settled : Settled (busy + 1) state (c :: text)) :
    Settled busy { state with previous := some c } text := by
  have same : lastRead busy { state with previous := some c } text = lastRead (busy + 1) state (c :: text) := by
    rw [lastRead, lastRead, List.take_succ_cons, List.getLast?_cons]
    cases (text.take busy).getLast? <;> rfl
  obtain ⟨above, below, slash, named⟩ := settled
  exact ⟨above, below, same ▸ slash, same ▸ named⟩

theorem Settled.finished (settled : Settled busy state []) : Settled 0 state [] := by
  have same : lastRead busy state [] = lastRead 0 state [] := by simp [lastRead]
  obtain ⟨above, below, slash, named⟩ := settled
  exact ⟨above, fun _ => .inl rfl, same ▸ slash, same ▸ named⟩

end Steps

section Reading

theorem single_settled (state next : State) (c : Char) (rest : Text) (noStar : c ≠ '*')
    (taken : state.take (View.singleToken c) = .ok next) : Settled 0 { next with previous := some c } rest := by
  have read (state : State) : lastRead 0 { state with previous := some c } rest = some c := by simp [lastRead]
  unfold View.singleToken at taken
  split at taken
  · rename_i mark
    cases taken
    exact .of_other .anyByte rfl (by simp) (by simp) (by simp) (by rw [read, mark]; decide)
  · split at taken
    · rename_i opening
      cases taken
      exact .of_empty rfl (by rw [read, opening]; decide)
    · split at taken
      · rename_i closing
        rw [State.take, State.closeBraces] at taken
        split at taken
        · cases taken
        · cases taken
          exact .of_other _ rfl (by simp) (by simp) (by simp) (by rw [read, closing]; decide)
      · split at taken
        · rename_i comma
          cases taken
          unfold State.comma
          split
          · exact .of_empty rfl (by rw [read, comma]; decide)
          · subst comma
            exact .of_literal ',' rfl (read _)
        · cases taken
          exact .of_literal c rfl (read _)

theorem starred_cases (piece : Piece) (current : List Piece)
    (above : current.head? = some .anyAbove → current = [.anyAbove]) (below : current.head? ≠ some .anyBelow) :
    starred piece current = [.anyAbove] ∨ (starred piece current).head? = some piece := by
  cases current with
  | nil => exact .inr rfl
  | cons last before =>
      cases last with
      | anyAbove => exact .inl (above rfl)
      | anyBelow => exact absurd rfl below
      | _ => exact .inr rfl

theorem token_settled (state next : State) (c : Char) (rest : Text) (busy : Nat) (token : Token)
    (settled : Settled 0 state (c :: rest)) (told : state.view.Tells c rest busy token)
    (taken : state.take token = .ok next) : Settled busy { next with previous := some c } rest := by
  have noBelow (star : c = '*') : state.level.current.head? ≠ some .anyBelow := by
    intro last
    have ends := settled.below last
    rw [star] at ends
    simp at ends
  have doubled (piece : Piece) := starred_cases piece state.level.current settled.above
  cases told with
  | run rest star =>
      cases taken
      exact .of_other .anyRun rfl (by simp) (by simp) (by simp) (by simp [lastRead, star])
  | twoStars rest star =>
      cases taken
      exact .of_other .anyRun rfl (by simp) (by simp) (by simp) (by simp [lastRead])
  | aboveAll star begins =>
      cases taken
      have alone : state.level.current = [] := List.isEmpty_iff.mp begins
      refine ⟨fun _ => ?_, fun _ => .inl rfl, ?_, ?_⟩
      · simp [State.push, alone]
      · simp [lastRead]
      · simp [lastRead]
  | above rest star begins =>
      cases taken
      have alone : state.level.current = [] := List.isEmpty_iff.mp begins
      refine ⟨fun _ => ?_, ?_, fun _ => .inr (.inr rfl), ?_⟩
      · simp [State.push, alone]
      · simp [State.push]
      · simp [lastRead]
  | between rest star =>
      cases taken
      simp only [State.double_star_eq]
      rcases doubled .anyBetween (noBelow star) with front | last
      · refine ⟨fun _ => front, ?_, fun _ => .inr (.inr (by simp [front])), ?_⟩
        · simp [front]
        · simp [lastRead]
      · refine ⟨?_, ?_, fun _ => .inr (.inl last), ?_⟩
        · simp [last]
        · simp [last]
        · simp [lastRead]
  | below rest star ends =>
      cases taken
      simp only [State.double_star_eq]
      refine ⟨?_, fun _ => ?_, ?_, ?_⟩
      · intro above
        rcases doubled .anyBelow (noBelow star) with front | last
        · exact front
        · simp [last] at above
      · rw [List.drop_succ_cons, List.drop_zero]
        exact ends.imp_right And.right
      · simp [lastRead]
      · simp [lastRead]
  | byteClass negated ranges inner rest bracket =>
      cases taken
      exact .of_other _ rfl (by simp) (by simp) (by simp) (by simp [lastRead, List.take_append])
  | escape d rest backslash =>
      cases taken
      exact .of_literal d rfl (by simp [lastRead])
  | single rest noStar noEscape => exact single_settled state next c rest noStar taken

variable (dialect : Dialect) (strict : dialect.loneBrackets = false)

include strict in
theorem read_all_settled (busy : Nat) (state last : State) (text : Text) (settled : Settled busy state text)
    (read : readAll dialect busy state text = .ok last) : Settled 0 last [] := by
  induction text generalizing busy state with
  | nil =>
      cases busy <;> cases read <;> exact settled.finished
  | cons c text ih =>
      cases busy with
      | succ busy => exact ih busy { state with previous := some c } (settled.passed c) read
      | zero =>
          obtain ⟨busy, token, next, told, taken, behind⟩ := read_all_step dialect strict state last c text read
          have tells := state.view.token_tells c text busy token told
          exact ih busy _ (token_settled state next c text busy token settled tells taken) behind

theorem start_settled (text : Text) : Settled 0 .start text := .of_empty rfl (by simp [lastRead, State.start])

end Reading

section Matching

def BeginsSegment (bytes rest : Bytes) : Prop := rest = bytes ∨ ∃ above, bytes = above ++ slash :: rest

def BetweenSegments (current : List Piece) : Prop :=
  current = [] ∨ current = [.anyAbove] ∨ current.head? = some (.literal '/') ∨ current.head? = some .anyBetween

theorem Settled.between {state : State} (settled : Settled 0 state []) (slash : state.previous = some '/') :
    BetweenSegments state.level.current := by
  rcases settled.slash (by simp [lastRead, slash]) with literal | between | above
  · exact .inr (.inr (.inl literal))
  · exact .inr (.inr (.inr between))
  · exact .inr (.inl (settled.above above))

theorem begins_segment_below (bytes above rest : Bytes) (below : above ++ slash :: rest <:+ bytes) :
    BeginsSegment bytes rest := by
  obtain ⟨front, rfl⟩ := below
  exact .inr ⟨front ++ above, by rw [List.append_assoc]⟩

-- Pieces that end where a segment does leave only rests that begin one.
theorem all_accept_segments (next other : Bytes → Bool) (current : List Piece) (bytes : Bytes)
    (between : BetweenSegments current)
    (wider : ∀ rest, BeginsSegment bytes rest → next rest = true → other rest = true)
    (holds : allAccept next current.reverse bytes = true) : allAccept other current.reverse bytes = true := by
  rcases between with rfl | rfl | literal | double
  · simp only [List.reverse_nil, allAccept] at holds ⊢
    exact wider bytes (.inl rfl) holds
  · simp only [List.reverse_singleton, allAccept, Piece.accepts, Bool.or_eq_true, some_below_iff] at holds ⊢
    rcases holds with here | ⟨above, rest, rfl, below⟩
    · exact .inl (wider bytes (.inl rfl) here)
    · exact .inr ⟨above, rest, rfl, wider rest (.inr ⟨above, rfl⟩) below⟩
  · obtain ⟨before, rfl⟩ := List.head?_eq_some_iff.mp literal
    rw [List.reverse_cons, all_accept_last] at holds ⊢
    refine all_accept_wider _ _ _ bytes (fun rest back taken => ?_) holds
    obtain ⟨inner, rfl, here⟩ := (literal_accepts next '/' rest).mp taken
    exact (literal_accepts other '/' _).mpr ⟨inner, rfl, wider inner (begins_segment_below bytes [] inner back) here⟩
  · obtain ⟨before, rfl⟩ := List.head?_eq_some_iff.mp double
    rw [List.reverse_cons, all_accept_last] at holds ⊢
    refine all_accept_wider _ _ _ bytes (fun rest back taken => ?_) holds
    cases rest with
    | nil => exact taken
    | cons byte rest =>
        simp only [Piece.accepts, Bool.and_eq_true, Bool.or_eq_true, beq_iff_eq, some_below_iff] at taken ⊢
        obtain ⟨rfl, here⟩ := taken
        refine ⟨rfl, ?_⟩
        rcases here with here | ⟨above, inner, rfl, here⟩
        · exact .inl (wider rest (begins_segment_below bytes [] rest back) here)
        · exact .inr ⟨above, inner, rfl, wider inner (begins_segment_below bytes (slash :: above) inner back) here⟩

end Matching

end BlockSearch.Glob
