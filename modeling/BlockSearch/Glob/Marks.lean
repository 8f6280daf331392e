import BlockSearch.Glob.Basic

/-!
Matching a glob at every rest of a path at once. The pieces are taken from the last one to the first, and each turns
the marks at the rests that the pieces behind it match into marks at the rests that it matches together with them, so
the work grows with the length of the glob times the length of the path. Main statement: the marks are those of the
plain reading of the glob.
-/

set_option autoImplicit false

namespace BlockSearch.Glob

-- Whether the test holds of each rest of the bytes, from all of them to none.
def marks (next : Bytes → Bool) : Bytes → List Bool
  | [] => [next []]
  | byte :: rest => next (byte :: rest) :: marks next rest

def markBefore (kind : UInt8 → Bool) : Bytes → List Bool → List Bool
  | [], _ => [false]
  | byte :: rest, marked => (kind byte && marked.tail.headD false) :: markBefore kind rest marked.tail

def markRun (kind : UInt8 → Bool) : Bytes → List Bool → List Bool
  | [], marked => [marked.headD false]
  | byte :: rest, marked =>
      let inner := markRun kind rest marked.tail
      (marked.headD false || (kind byte && inner.headD false)) :: inner

def markBelow : Bytes → List Bool → List Bool
  | [], _ => [false]
  | byte :: rest, marked =>
      let inner := markBelow rest marked.tail
      ((byte == slash && marked.tail.headD false) || inner.headD false) :: inner

def markEither (a b : List Bool) : List Bool := List.zipWith (· || ·) a b

mutual
def Piece.mark (bytes : Bytes) (marked : List Bool) : Piece → List Bool
  | .literal c => (String.utf8EncodeChar c).foldr (fun byte => markBefore (· == byte) bytes) marked
  | .anyByte => markBefore (· != slash) bytes marked
  | .anyRun => markRun (· != slash) bytes marked
  | .anyAbove => markEither marked (markBelow bytes marked)
  | .anyBelow => markBefore (· == slash) bytes (markRun (fun _ => true) bytes marked)
  | .anyBetween => markBefore (· == slash) bytes (markEither marked (markBelow bytes marked))
  | .byteClass negated ranges =>
      let table := classRanges ranges
      markBefore (fun byte => inRanges table byte != negated) bytes marked
  | .alternatives branches => markAny bytes marked branches

def markAll (bytes : Bytes) (marked : List Bool) : List Piece → List Bool
  | [] => marked
  | piece :: pieces => piece.mark bytes (markAll bytes marked pieces)

def markAny (bytes : Bytes) (marked : List Bool) : List (List Piece) → List Bool
  | [] => marks (fun _ => false) bytes
  | branch :: branches => markEither (markAll bytes marked branch) (markAny bytes marked branches)
end

theorem marks_head (next : Bytes → Bool) (bytes : Bytes) : (marks next bytes).headD false = next bytes := by
  cases bytes <;> rfl

theorem mark_before_marks (kind : UInt8 → Bool) (next : Bytes → Bool) (bytes : Bytes) :
    markBefore kind bytes (marks next bytes) =
      marks (fun
        | [] => false
        | byte :: rest => kind byte && next rest) bytes := by
  induction bytes with
  | nil => rfl
  | cons byte rest ih => simp only [marks, markBefore, List.tail_cons, marks_head, ih]

theorem mark_within_marks (next : Bytes → Bool) (bytes : Bytes) :
    markRun (· != slash) bytes (marks next bytes) = marks (someWithin next) bytes := by
  induction bytes with
  | nil => rfl
  | cons byte rest ih =>
      simp only [marks, markRun, List.tail_cons, List.headD_cons, ih, marks_head, someWithin]

theorem mark_rest_marks (next : Bytes → Bool) (bytes : Bytes) :
    markRun (fun _ => true) bytes (marks next bytes) = marks (someRest next) bytes := by
  induction bytes with
  | nil => rfl
  | cons byte rest ih =>
      simp only [marks, markRun, List.tail_cons, List.headD_cons, ih, marks_head, someRest, Bool.true_and]

theorem mark_below_marks (next : Bytes → Bool) (bytes : Bytes) :
    markBelow bytes (marks next bytes) = marks (someBelow next) bytes := by
  induction bytes with
  | nil => rfl
  | cons byte rest ih => simp only [marks, markBelow, List.tail_cons, ih, marks_head, someBelow]

theorem mark_either_marks (a b : Bytes → Bool) (bytes : Bytes) :
    markEither (marks a bytes) (marks b bytes) = marks (fun bytes => a bytes || b bytes) bytes := by
  induction bytes with
  | nil => rfl
  | cons byte rest ih =>
      simp only [markEither, marks, List.zipWith_cons_cons] at ih ⊢
      rw [ih]

theorem mark_bytes_marks (lead : Bytes) (next : Bytes → Bool) (bytes : Bytes) :
    lead.foldr (fun byte => markBefore (· == byte) bytes) (marks next bytes) =
      marks (fun bytes =>
        match afterBytes lead bytes with
        | some rest => next rest
        | none => false) bytes := by
  induction lead with
  | nil => rfl
  | cons byte lead ih =>
      rw [List.foldr_cons, ih, mark_before_marks]
      congr 1
      funext bytes
      cases bytes with
      | nil => rfl
      | cons other rest =>
          by_cases same : byte = other
          · simp [afterBytes, same]
          · simp [afterBytes, same, Ne.symm same]

mutual
theorem piece_mark_marks (next : Bytes → Bool) (bytes : Bytes) (piece : Piece) :
    piece.mark bytes (marks next bytes) = marks (piece.accepts next) bytes := by
  cases piece with
  | literal c =>
      rw [Piece.mark, mark_bytes_marks]
      rfl
  | anyByte =>
      rw [Piece.mark, mark_before_marks]
      congr 1
      funext bytes
      cases bytes <;> rfl
  | anyRun =>
      rw [Piece.mark, mark_within_marks]
      rfl
  | anyAbove =>
      rw [Piece.mark, mark_below_marks, mark_either_marks]
      rfl
  | anyBelow =>
      rw [Piece.mark, mark_rest_marks, mark_before_marks]
      congr 1
      funext bytes
      cases bytes <;> rfl
  | anyBetween =>
      rw [Piece.mark, mark_below_marks, mark_either_marks, mark_before_marks]
      congr 1
      funext bytes
      cases bytes <;> rfl
  | byteClass negated ranges =>
      rw [Piece.mark, mark_before_marks]
      congr 1
      funext bytes
      cases bytes <;> rfl
  | alternatives branches =>
      rw [Piece.mark, mark_any_marks next bytes branches]
      rfl

theorem mark_all_marks (next : Bytes → Bool) (bytes : Bytes) (pieces : List Piece) :
    markAll bytes (marks next bytes) pieces = marks (allAccept next pieces) bytes := by
  cases pieces with
  | nil => rfl
  | cons piece pieces =>
      rw [markAll, mark_all_marks next bytes pieces, piece_mark_marks _ bytes piece]
      rfl

theorem mark_any_marks (next : Bytes → Bool) (bytes : Bytes) (branches : List (List Piece)) :
    markAny bytes (marks next bytes) branches = marks (anyAccepts next branches) bytes := by
  cases branches with
  | nil => rfl
  | cons branch branches =>
      rw [markAny, mark_all_marks next bytes branch, mark_any_marks next bytes branches, mark_either_marks]
      rfl
end

end BlockSearch.Glob
