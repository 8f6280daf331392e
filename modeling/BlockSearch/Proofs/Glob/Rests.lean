import BlockSearch.Proofs.Glob.Alternation

set_option autoImplicit false

namespace BlockSearch.Glob

theorem all_accept_append (next : Bytes → Bool) (front back : List Piece) (bytes : Bytes) :
    allAccept next (front ++ back) bytes = allAccept (fun rest => allAccept next back rest) front bytes := by
  induction front generalizing bytes with
  | nil => simp only [List.nil_append, allAccept]
  | cons piece front ih =>
      have behind : (fun rest => allAccept next (front ++ back) rest) =
          fun rest => allAccept (fun rest => allAccept next back rest) front rest := funext ih
      simp only [List.cons_append, allAccept, behind]

theorem all_accept_last (next : Bytes → Bool) (front : List Piece) (last : Piece) (bytes : Bytes) :
    allAccept next (front ++ [last]) bytes = allAccept (fun rest => last.accepts next rest) front bytes := by
  simp only [all_accept_append, allAccept]

theorem any_accepts_append (next : Bytes → Bool) (front back : List (List Piece)) (bytes : Bytes) :
    anyAccepts next (front ++ back) bytes = (anyAccepts next front bytes || anyAccepts next back bytes) := by
  induction front with
  | nil => simp [anyAccepts]
  | cons branch front ih => rw [List.cons_append, anyAccepts, ih, anyAccepts, Bool.or_assoc]

section Either

variable (next other : Bytes → Bool)

theorem some_within_either (bytes : Bytes) :
    someWithin (fun rest => next rest || other rest) bytes = (someWithin next bytes || someWithin other bytes) := by
  induction bytes with
  | nil => rfl
  | cons byte rest ih =>
      rw [someWithin, someWithin, someWithin, ih]
      cases next (byte :: rest) <;> cases other (byte :: rest) <;> cases byte != slash <;> simp

theorem some_rest_either (bytes : Bytes) :
    someRest (fun rest => next rest || other rest) bytes = (someRest next bytes || someRest other bytes) := by
  induction bytes with
  | nil => rfl
  | cons byte rest ih =>
      rw [someRest, someRest, someRest, ih]
      cases next (byte :: rest) <;> cases other (byte :: rest) <;> simp

theorem some_below_either (bytes : Bytes) :
    someBelow (fun rest => next rest || other rest) bytes = (someBelow next bytes || someBelow other bytes) := by
  induction bytes with
  | nil => rfl
  | cons byte rest ih =>
      rw [someBelow, someBelow, someBelow, ih]
      cases byte == slash <;> cases next rest <;> cases other rest <;> simp

end Either

mutual
theorem accepts_either (next other : Bytes → Bool) (piece : Piece) (bytes : Bytes) :
    piece.accepts (fun rest => next rest || other rest) bytes =
      (piece.accepts next bytes || piece.accepts other bytes) := by
  cases piece with
  | literal c =>
      simp only [Piece.accepts]
      cases afterBytes (String.utf8EncodeChar c) bytes <;> rfl
  | anyByte => cases bytes <;> simp [Piece.accepts, Bool.and_or_distrib_left]
  | anyRun => simp only [Piece.accepts, some_within_either]
  | anyAbove =>
      simp only [Piece.accepts, some_below_either]
      ac_rfl
  | anyBelow =>
      cases bytes with
      | nil => rfl
      | cons byte rest => simp only [Piece.accepts, some_rest_either, Bool.and_or_distrib_left]
  | anyBetween =>
      cases bytes with
      | nil => rfl
      | cons byte rest =>
          simp only [Piece.accepts, some_below_either, ← Bool.and_or_distrib_left]
          ac_rfl
  | byteClass negated ranges => cases bytes <;> simp [Piece.accepts, Bool.and_or_distrib_left]
  | alternatives branches =>
      simp only [Piece.accepts]
      exact any_accepts_either next other branches bytes

theorem all_accept_either (next other : Bytes → Bool) (pieces : List Piece) (bytes : Bytes) :
    allAccept (fun rest => next rest || other rest) pieces bytes =
      (allAccept next pieces bytes || allAccept other pieces bytes) := by
  cases pieces with
  | nil => simp only [allAccept]
  | cons piece pieces =>
      have behind : (fun rest => allAccept (fun rest => next rest || other rest) pieces rest) =
          fun rest => allAccept next pieces rest || allAccept other pieces rest :=
        funext (all_accept_either next other pieces)
      simp only [allAccept, behind]
      exact accepts_either _ _ piece bytes

theorem any_accepts_either (next other : Bytes → Bool) (branches : List (List Piece)) (bytes : Bytes) :
    anyAccepts (fun rest => next rest || other rest) branches bytes =
      (anyAccepts next branches bytes || anyAccepts other branches bytes) := by
  cases branches with
  | nil => rfl
  | cons branch branches =>
      rw [anyAccepts, all_accept_either next other branch, any_accepts_either next other branches, anyAccepts, anyAccepts]
      ac_rfl
end

theorem some_rest_iff (next : Bytes → Bool) (bytes : Bytes) :
    someRest next bytes = true ↔ ∃ taken rest, bytes = taken ++ rest ∧ next rest = true := by
  induction bytes with
  | nil =>
      simp only [someRest, List.nil_eq_append_iff]
      constructor
      · exact fun holds => ⟨[], [], ⟨rfl, rfl⟩, holds⟩
      · rintro ⟨_, _, ⟨rfl, rfl⟩, holds⟩
        exact holds
  | cons byte bytes ih =>
      simp only [someRest, Bool.or_eq_true, ih]
      constructor
      · rintro (here | ⟨taken, rest, rfl, holds⟩)
        · exact ⟨[], _, rfl, here⟩
        · exact ⟨byte :: taken, rest, rfl, holds⟩
      · rintro ⟨taken, rest, cut, holds⟩
        cases taken with
        | nil => exact .inl (by rwa [cut])
        | cons first taken =>
            obtain ⟨rfl, rfl⟩ := List.cons.inj cut
            exact .inr ⟨taken, rest, rfl, holds⟩

-- Of every rest of the bytes of which the one test holds, the other one holds as well.
def Wider (next other : Bytes → Bool) (bytes : Bytes) : Prop :=
  ∀ rest, rest <:+ bytes → next rest = true → other rest = true

theorem Wider.behind {next other : Bytes → Bool} {bytes : Bytes} (wider : Wider next other bytes) (rest : Bytes)
    (back : rest <:+ bytes) : Wider next other rest := fun inner further => wider inner (further.trans back)

theorem some_within_wider (next other : Bytes → Bool) (bytes : Bytes) (wider : Wider next other bytes)
    (holds : someWithin next bytes = true) : someWithin other bytes = true := by
  obtain ⟨taken, rest, rfl, free, here⟩ := (some_within_iff next bytes).mp holds
  exact (some_within_iff other _).mpr ⟨taken, rest, rfl, free, wider rest ⟨taken, rfl⟩ here⟩

theorem some_rest_wider (next other : Bytes → Bool) (bytes : Bytes) (wider : Wider next other bytes)
    (holds : someRest next bytes = true) : someRest other bytes = true := by
  obtain ⟨taken, rest, rfl, here⟩ := (some_rest_iff next bytes).mp holds
  exact (some_rest_iff other _).mpr ⟨taken, rest, rfl, wider rest ⟨taken, rfl⟩ here⟩

theorem some_below_wider (next other : Bytes → Bool) (bytes : Bytes) (wider : Wider next other bytes)
    (holds : someBelow next bytes = true) : someBelow other bytes = true := by
  obtain ⟨above, rest, rfl, here⟩ := (some_below_iff next bytes).mp holds
  exact (some_below_iff other _).mpr ⟨above, rest, rfl, wider rest ⟨above ++ [slash], by simp⟩ here⟩

mutual
theorem accepts_wider (next other : Bytes → Bool) (piece : Piece) (bytes : Bytes) (wider : Wider next other bytes)
    (holds : piece.accepts next bytes = true) : piece.accepts other bytes = true := by
  cases piece with
  | literal c =>
      obtain ⟨rest, rfl, here⟩ := (literal_accepts next c bytes).mp holds
      exact (literal_accepts other c _).mpr ⟨rest, rfl, wider rest ⟨_, rfl⟩ here⟩
  | anyByte =>
      cases bytes with
      | nil => exact holds
      | cons byte rest =>
          simp only [Piece.accepts, Bool.and_eq_true] at holds ⊢
          exact ⟨holds.1, wider rest (List.suffix_cons byte rest) holds.2⟩
  | anyRun =>
      rw [Piece.accepts] at holds ⊢
      exact some_within_wider next other bytes wider holds
  | anyAbove =>
      simp only [Piece.accepts, Bool.or_eq_true] at holds ⊢
      exact holds.imp (wider bytes List.suffix_rfl) (some_below_wider next other bytes wider)
  | anyBelow =>
      cases bytes with
      | nil => exact holds
      | cons byte rest =>
          simp only [Piece.accepts, Bool.and_eq_true] at holds ⊢
          exact ⟨holds.1, some_rest_wider next other rest (wider.behind rest (List.suffix_cons byte rest)) holds.2⟩
  | anyBetween =>
      cases bytes with
      | nil => exact holds
      | cons byte rest =>
          have behind := wider.behind rest (List.suffix_cons byte rest)
          simp only [Piece.accepts, Bool.and_eq_true, Bool.or_eq_true] at holds ⊢
          exact ⟨holds.1, holds.2.imp (behind rest List.suffix_rfl) (some_below_wider next other rest behind)⟩
  | byteClass negated ranges =>
      cases bytes with
      | nil => exact holds
      | cons byte rest =>
          simp only [Piece.accepts, Bool.and_eq_true] at holds ⊢
          exact ⟨holds.1, wider rest (List.suffix_cons byte rest) holds.2⟩
  | alternatives branches =>
      rw [Piece.accepts] at holds ⊢
      exact any_accepts_wider next other branches bytes wider holds

theorem all_accept_wider (next other : Bytes → Bool) (pieces : List Piece) (bytes : Bytes)
    (wider : Wider next other bytes) (holds : allAccept next pieces bytes = true) :
    allAccept other pieces bytes = true := by
  cases pieces with
  | nil =>
      rw [allAccept] at holds ⊢
      exact wider bytes List.suffix_rfl holds
  | cons piece pieces =>
      rw [allAccept] at holds ⊢
      exact accepts_wider _ _ piece bytes
        (fun rest back => all_accept_wider next other pieces rest (wider.behind rest back)) holds

theorem any_accepts_wider (next other : Bytes → Bool) (branches : List (List Piece)) (bytes : Bytes)
    (wider : Wider next other bytes) (holds : anyAccepts next branches bytes = true) :
    anyAccepts other branches bytes = true := by
  cases branches with
  | nil => exact holds
  | cons branch branches =>
      simp only [anyAccepts, Bool.or_eq_true] at holds ⊢
      exact holds.imp (all_accept_wider next other branch bytes wider)
        (any_accepts_wider next other branches bytes wider)
end

end BlockSearch.Glob
