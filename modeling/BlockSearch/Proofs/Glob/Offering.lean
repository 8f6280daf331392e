import BlockSearch.Proofs.Glob.Rests
import BlockSearch.Proofs.Glob.Tokens

/-!
A glob with a choice of two texts in it, beside the two globs that hold one of the texts each. From the choice on all
three are read alike, and at every step what was read of the first accepts what was read of one of the others does. Main
statement: `read_all_abreast`.
-/

set_option autoImplicit false

namespace BlockSearch.Glob

-- The first pieces accept what one of the others do. They are in reverse, as those of an open branch are.
def Offers (both plain typed : List Piece) : Prop :=
  ∀ next bytes, allAccept next both.reverse bytes =
    (allAccept next plain.reverse bytes || allAccept next typed.reverse bytes)

def BranchesOffer (both plain typed : List (List Piece)) : Prop :=
  ∀ next bytes, anyAccepts next (both.map List.reverse).reverse bytes =
    (anyAccepts next (plain.map List.reverse).reverse bytes || anyAccepts next (typed.map List.reverse).reverse bytes)

section Pieces

variable {both plain typed : List Piece}

theorem Offers.same (pieces : List Piece) : Offers pieces pieces pieces := fun _ _ => (Bool.or_self _).symm

theorem Offers.push (offers : Offers both plain typed) (piece : Piece) :
    Offers (piece :: both) (piece :: plain) (piece :: typed) := by
  intro next bytes
  simp only [List.reverse_cons, all_accept_last]
  exact offers _ bytes

theorem Offers.choice (pieces text other : List Piece) :
    Offers (.alternatives [text, other] :: pieces) (other.reverse ++ pieces) (text.reverse ++ pieces) := by
  intro next bytes
  have chosen : (fun rest => (Piece.alternatives [text, other]).accepts next rest) =
      fun rest => allAccept next other rest || allAccept next text rest := by
    funext rest
    simp only [Piece.accepts, anyAccepts, Bool.or_false]
    exact Bool.or_comm _ _
  rw [List.reverse_cons, all_accept_last, chosen, all_accept_either]
  simp only [List.reverse_append, List.reverse_reverse, all_accept_append]

theorem any_accepts_last (next : Bytes → Bool) (branch : List Piece) (finished : List (List Piece)) (bytes : Bytes) :
    anyAccepts next ((branch :: finished).map List.reverse).reverse bytes =
      (anyAccepts next (finished.map List.reverse).reverse bytes || allAccept next branch.reverse bytes) := by
  simp only [List.map_cons, List.reverse_cons, any_accepts_append, anyAccepts, Bool.or_false]

theorem Offers.finish (offers : Offers both plain typed) (finished : List (List Piece)) :
    BranchesOffer (both :: finished) (plain :: finished) (typed :: finished) := by
  intro next bytes
  simp only [any_accepts_last, offers next bytes]
  cases anyAccepts next (finished.map List.reverse).reverse bytes <;> simp

end Pieces

section Branches

variable {both plain typed : List (List Piece)}

theorem BranchesOffer.finish (offer : BranchesOffer both plain typed) (current : List Piece) :
    BranchesOffer (current :: both) (current :: plain) (current :: typed) := by
  intro next bytes
  simp only [any_accepts_last, offer next bytes]
  cases allAccept next current.reverse bytes <;> simp

def group (branches : List (List Piece)) : Piece := .alternatives (branches.map List.reverse).reverse

theorem BranchesOffer.close (offer : BranchesOffer both plain typed) (pieces : List Piece) :
    Offers (group both :: pieces) (group plain :: pieces) (group typed :: pieces) := by
  intro next bytes
  have either : (fun rest => (group both).accepts next rest) =
      fun rest => (group plain).accepts next rest || (group typed).accepts next rest := by
    funext rest
    simp only [group, Piece.accepts]
    exact offer next rest
  simp only [List.reverse_cons, all_accept_last]
  rw [either, all_accept_either]

end Branches

-- The branch that is open offers, and so does what is before its last piece.
inductive Topped : List Piece → List Piece → List Piece → Prop
  | piece (piece : Piece) {both plain typed : List Piece} (offers : Offers both plain typed) :
      Topped (piece :: both) (piece :: plain) (piece :: typed)
  | closed (pieces : List Piece) {both plain typed : List (List Piece)} (offer : BranchesOffer both plain typed) :
      Topped (group both :: pieces) (group plain :: pieces) (group typed :: pieces)

-- Open groups that differ in one place, from the inner one to the outermost: in the branch that is open or in those
-- before.
inductive Within : List Level → List Level → List Level → Prop
  | current (finished : List (List Piece)) (outer : List Level) {both plain typed : List Piece}
      (offers : Offers both plain typed) :
      Within (⟨finished, both⟩ :: outer) (⟨finished, plain⟩ :: outer) (⟨finished, typed⟩ :: outer)
  | finished (current : List Piece) (outer : List Level) {both plain typed : List (List Piece)} (inside : outer ≠ [])
      (offer : BranchesOffer both plain typed) :
      Within (⟨both, current⟩ :: outer) (⟨plain, current⟩ :: outer) (⟨typed, current⟩ :: outer)
  | outer (level : Level) {both plain typed : List Level} (within : Within both plain typed) :
      Within (level :: both) (level :: plain) (level :: typed)

-- Here a piece of the open branch was read already, so that a double star can take its place.
inductive Ready : List Level → List Level → List Level → Prop
  | current (finished : List (List Piece)) (outer : List Level) {both plain typed : List Piece}
      (topped : Topped both plain typed) :
      Ready (⟨finished, both⟩ :: outer) (⟨finished, plain⟩ :: outer) (⟨finished, typed⟩ :: outer)
  | finished (current : List Piece) (outer : List Level) {both plain typed : List (List Piece)} (inside : outer ≠ [])
      (offer : BranchesOffer both plain typed) :
      Ready (⟨both, current⟩ :: outer) (⟨plain, current⟩ :: outer) (⟨typed, current⟩ :: outer)
  | outer (level : Level) {both plain typed : List Level} (within : Within both plain typed) :
      Ready (level :: both) (level :: plain) (level :: typed)

theorem Topped.offers {both plain typed : List Piece} (topped : Topped both plain typed) : Offers both plain typed := by
  cases topped with
  | piece piece offers => exact offers.push piece
  | closed pieces offer => exact offer.close pieces

def State.levels (state : State) : List Level := state.level :: state.outer

theorem Topped.starred {both plain typed : List Piece} (topped : Topped both plain typed) (piece : Piece) :
    Topped (starred piece both) (starred piece plain) (starred piece typed) := by
  cases topped with
  | piece last offers => cases last <;> exact .piece _ offers
  | closed pieces offer => exact .piece piece (Offers.same pieces)

theorem Ready.within {both plain typed : List Level} (ready : Ready both plain typed) : Within both plain typed := by
  cases ready with
  | current finished outer topped => exact .current finished outer topped.offers
  | finished current outer inside offer => exact .finished current outer inside offer
  | outer level within => exact .outer level within

section Levels

variable {level plainLevel typedLevel : Level} {outer plainOuter typedOuter : List Level}

theorem Within.push (within : Within (level :: outer) (plainLevel :: plainOuter) (typedLevel :: typedOuter))
    (piece : Piece) :
    Ready ({ level with current := piece :: level.current } :: outer)
      ({ plainLevel with current := piece :: plainLevel.current } :: plainOuter)
      ({ typedLevel with current := piece :: typedLevel.current } :: typedOuter) := by
  cases within with
  | current finished outer offers => exact .current finished outer (.piece piece offers)
  | finished current outer inside offer => exact .finished (piece :: current) outer inside offer
  | outer level within => exact .outer _ within

theorem Ready.starred (ready : Ready (level :: outer) (plainLevel :: plainOuter) (typedLevel :: typedOuter))
    (piece : Piece) :
    Ready ({ level with current := Glob.starred piece level.current } :: outer)
      ({ plainLevel with current := Glob.starred piece plainLevel.current } :: plainOuter)
      ({ typedLevel with current := Glob.starred piece typedLevel.current } :: typedOuter) := by
  cases ready with
  | current finished outer topped => exact .current finished outer (topped.starred piece)
  | finished current outer inside offer => exact .finished (Glob.starred piece current) outer inside offer
  | outer level within => exact .outer _ within

theorem Within.inside (within : Within (level :: outer) (plainLevel :: plainOuter) (typedLevel :: typedOuter)) :
    outer.isEmpty = plainOuter.isEmpty ∧ typedOuter.isEmpty = plainOuter.isEmpty := by
  cases within with
  | current => exact ⟨rfl, rfl⟩
  | finished => exact ⟨rfl, rfl⟩
  | outer level within => cases within <;> exact ⟨rfl, rfl⟩

theorem Ready.begins (ready : Ready (level :: outer) (plainLevel :: plainOuter) (typedLevel :: typedOuter)) :
    level.current.isEmpty = plainLevel.current.isEmpty ∧ typedLevel.current.isEmpty = plainLevel.current.isEmpty := by
  cases ready with
  | current finished outer topped => cases topped <;> exact ⟨rfl, rfl⟩
  | finished => exact ⟨rfl, rfl⟩
  | outer => exact ⟨rfl, rfl⟩

theorem Within.comma (within : Within (level :: outer) (plainLevel :: plainOuter) (typedLevel :: typedOuter))
    (inside : plainOuter ≠ []) :
    Ready (⟨level.current :: level.finished, []⟩ :: outer) (⟨plainLevel.current :: plainLevel.finished, []⟩ :: plainOuter)
      (⟨typedLevel.current :: typedLevel.finished, []⟩ :: typedOuter) := by
  cases within with
  | current finished outer offers => exact .finished [] outer inside (offers.finish finished)
  | finished current outer inside offer => exact .finished [] outer inside (offer.finish current)
  | outer level within => exact .outer _ within

end Levels

section States

variable {both plain typed next : State} (within : Within both.levels plain.levels typed.levels)

include within in
theorem Within.in_braces : both.inBraces = plain.inBraces ∧ typed.inBraces = plain.inBraces := by
  obtain ⟨left, right⟩ := within.inside
  exact ⟨congrArg Bool.not left, congrArg Bool.not right⟩

include within in
theorem Within.close (closed : plain.closeBraces = .ok next) :
    ∃ bothNext typedNext, both.closeBraces = .ok bothNext ∧ typed.closeBraces = .ok typedNext ∧
      Ready bothNext.levels next.levels typedNext.levels := by
  obtain ⟨level, outer, previous, brackets⟩ := both
  obtain ⟨plainLevel, plainOuter, plainPrevious, plainBrackets⟩ := plain
  obtain ⟨typedLevel, typedOuter, typedPrevious, typedBrackets⟩ := typed
  cases within with
  | current finished outer offers =>
      cases outer with
      | nil => cases closed
      | cons above outer =>
          cases closed
          exact ⟨_, _, rfl, rfl, .current above.finished outer (.closed above.current (offers.finish finished))⟩
  | finished current outer inside offer =>
      cases outer with
      | nil => exact absurd rfl inside
      | cons above outer =>
          cases closed
          exact ⟨_, _, rfl, rfl, .current above.finished outer (.closed above.current (offer.finish current))⟩
  | outer level within =>
      have pushed {a b c : Level} {as bs cs : List Level} (within : Within (a :: as) (b :: bs) (c :: cs)) :=
        within.push (group (level.current :: level.finished))
      cases within with
      | current finished outer offers =>
          cases closed
          exact ⟨_, _, rfl, rfl, pushed (.current finished outer offers)⟩
      | finished current outer inside offer =>
          cases closed
          exact ⟨_, _, rfl, rfl, pushed (.finished current outer inside offer)⟩
      | outer above within =>
          cases closed
          exact ⟨_, _, rfl, rfl, pushed (.outer above within)⟩

include within in
theorem Within.take (token : Token) (other : ∀ piece, token ≠ .doubleStar piece) (taken : plain.take token = .ok next) :
    ∃ bothNext typedNext, both.take token = .ok bothNext ∧ typed.take token = .ok typedNext ∧
      Ready bothNext.levels next.levels typedNext.levels := by
  cases token with
  | piece piece =>
      cases taken
      exact ⟨_, _, rfl, rfl, within.push piece⟩
  | twoStars =>
      cases taken
      exact ⟨_, _, rfl, rfl, (within.push .anyRun).within.push .anyRun⟩
  | doubleStar piece => exact absurd rfl (other piece)
  | opening =>
      cases taken
      exact ⟨_, _, rfl, rfl, .outer ⟨[], []⟩ within⟩
  | closing => exact within.close taken
  | comma =>
      obtain ⟨left, right⟩ := within.in_braces
      cases taken
      refine ⟨_, _, rfl, rfl, ?_⟩
      unfold State.comma
      rw [left, right]
      cases braces : plain.inBraces with
      | true => exact within.comma (by simpa [State.inBraces] using braces)
      | false => exact within.push (.literal ',')

theorem Ready.take (ready : Ready both.levels plain.levels typed.levels) (token : Token)
    (taken : plain.take token = .ok next) :
    ∃ bothNext typedNext, both.take token = .ok bothNext ∧ typed.take token = .ok typedNext ∧
      Ready bothNext.levels next.levels typedNext.levels := by
  cases token with
  | doubleStar piece =>
      cases taken
      refine ⟨_, _, rfl, rfl, ?_⟩
      simp only [State.double_star_eq]
      exact ready.starred piece
  | piece piece => exact ready.within.take (.piece piece) (by simp) taken
  | twoStars => exact ready.within.take .twoStars (by simp) taken
  | opening => exact ready.within.take .opening (by simp) taken
  | closing => exact ready.within.take .closing (by simp) taken
  | comma => exact ready.within.take .comma (by simp) taken

end States

theorem State.take_brackets (state next : State) (token : Token) (taken : state.take token = .ok next) :
    next.literalBrackets = state.literalBrackets := by
  cases token with
  | closing =>
      rw [State.take, State.closeBraces] at taken
      split at taken
      · cases taken
      · cases taken
        rfl
  | comma =>
      rw [State.take, State.comma] at taken
      split at taken <;> cases taken <;> rfl
  | doubleStar piece =>
      rw [State.take, State.double_star_eq] at taken
      cases taken
      rfl
  | _ =>
      cases taken
      rfl

-- States between which the text that follows makes no difference.
structure Abreast (both plain typed : State) : Prop where
  ready : Ready both.levels plain.levels typed.levels
  bothPrevious : both.previous = plain.previous
  typedPrevious : typed.previous = plain.previous
  bothBrackets : both.literalBrackets = plain.literalBrackets
  typedBrackets : typed.literalBrackets = plain.literalBrackets

theorem Abreast.view {both plain typed : State} (abreast : Abreast both plain typed) :
    both.view = plain.view ∧ typed.view = plain.view := by
  obtain ⟨ready, bothPrevious, typedPrevious, bothBrackets, typedBrackets⟩ := abreast
  have braces := ready.within.in_braces
  have begins := ready.begins
  simp only [State.view, braces, begins, bothPrevious, typedPrevious, bothBrackets, typedBrackets, and_self]

theorem Abreast.passed {both plain typed : State} (abreast : Abreast both plain typed) (c : Char) :
    Abreast { both with previous := some c } { plain with previous := some c } { typed with previous := some c } :=
  ⟨abreast.ready, rfl, rfl, abreast.bothBrackets, abreast.typedBrackets⟩

theorem Abreast.take {both plain typed next : State} (abreast : Abreast both plain typed) (token : Token) (c : Char)
    (taken : plain.take token = .ok next) :
    ∃ bothNext typedNext, both.take token = .ok bothNext ∧ typed.take token = .ok typedNext ∧
      Abreast { bothNext with previous := some c } { next with previous := some c }
        { typedNext with previous := some c } := by
  obtain ⟨bothNext, typedNext, bothTaken, typedTaken, ready⟩ := abreast.ready.take token taken
  refine ⟨bothNext, typedNext, bothTaken, typedTaken, ready, rfl, rfl, ?_, ?_⟩
  · rw [State.take_brackets _ _ token bothTaken, State.take_brackets _ _ token taken, abreast.bothBrackets]
  · rw [State.take_brackets _ _ token typedTaken, State.take_brackets _ _ token taken, abreast.typedBrackets]

section Reading

variable (dialect : Dialect) (strict : dialect.loneBrackets = false)

include strict in
theorem read_all_abreast (busy : Nat) (both plain typed last : State) (text : Text) (abreast : Abreast both plain typed)
    (read : readAll dialect busy plain text = .ok last) :
    ∃ bothLast typedLast, readAll dialect busy both text = .ok bothLast ∧
      readAll dialect busy typed text = .ok typedLast ∧ Ready bothLast.levels last.levels typedLast.levels := by
  induction text generalizing busy both plain typed with
  | nil =>
      cases busy <;> cases read <;> exact ⟨both, typed, rfl, rfl, abreast.ready⟩
  | cons c text ih =>
      cases busy with
      | succ busy => exact ih busy _ _ _ (abreast.passed c) read
      | zero =>
          obtain ⟨busy, token, next, told, taken, behind⟩ := read_all_step dialect strict plain last c text read
          obtain ⟨bothNext, typedNext, bothTaken, typedTaken, onward⟩ := abreast.take token c taken
          have bothRead := read_all_taken dialect strict both bothNext c text busy token (abreast.view.1 ▸ told) bothTaken
          have typedRead :=
            read_all_taken dialect strict typed typedNext c text busy token (abreast.view.2 ▸ told) typedTaken
          rw [bothRead, typedRead]
          exact ih busy _ _ _ onward behind

theorem two_stars_elsewhere (view : View) (next : Option Char) (begun : view.begins = false)
    (elsewhere : view.atSegment = false) : view.twoStarsToken next = (1, .twoStars) := by
  simp [View.twoStarsToken, begun, elsewhere]

theorem two_stars_plain (view : View) (next : Option Char) (begun : view.begins = false)
    (plain : ∀ busy piece, view.twoStarsToken next ≠ (busy, .doubleStar piece)) :
    view.twoStarsToken next = (1, .twoStars) := by
  simp only [View.twoStarsToken, begun, Bool.false_eq_true, if_false] at plain ⊢
  split at plain
  · split at plain
    · exact absurd rfl (plain _ _)
    · split at plain
      · exact absurd rfl (plain _ _)
      · rw [if_pos ‹_›, if_neg ‹_›, if_neg ‹_›]
  · rw [if_neg ‹_›]

theorem token_elsewhere (view : View) (previous : Option Char) (c : Char) (rest : Text) (begun : view.begins = false)
    (elsewhere : View.atSegment { view with previous := previous } = false)
    (plain : ∀ busy piece, view.token c rest ≠ .ok (busy, .doubleStar piece)) :
    View.token { view with previous := previous } c rest = view.token c rest := by
  by_cases star : c = '*'
  · subst star
    have told (view : View) : view.token '*' rest = .ok (view.starToken rest) := rfl
    rw [told] at plain
    rw [told, told]
    cases rest with
    | nil => rfl
    | cons d rest =>
        by_cases second : d = '*'
        · subst second
          rw [star_token_two, star_token_two, two_stars_elsewhere { view with previous := previous } _ begun elsewhere,
            two_stars_plain view _ begun]
          exact fun busy piece same => plain busy piece (congrArg _ same)
        · rw [star_token_one _ d rest second, star_token_one _ d rest second]
  · simp only [View.token, if_neg star]

include strict in
theorem read_all_offered (state last : State) (lead : Text) (c : Char) (rest : Text) (begun : state.level.current ≠ [])
    (slash : state.previous = some '/') (ends : lead.getLast? = some '/')
    (plain : ∀ busy piece, state.view.token c rest ≠ .ok (busy, .doubleStar piece))
    (read : readAll dialect 0 state (c :: rest) = .ok last) :
    ∃ bothLast typedLast,
      readAll dialect 0 { state.push (.alternatives [word lead, []]) with previous := some '}' } (c :: rest) =
        .ok bothLast ∧
      readAll dialect 0 (state.written lead) (c :: rest) = .ok typedLast ∧
        Ready bothLast.levels last.levels typedLast.levels := by
  have empty : state.level.current.isEmpty = false := by simpa using begun
  have typedView : (state.written lead).view = state.view := by
    simp [State.view, State.written, ends, slash, empty, begun, State.inBraces]
  have bothView : State.view { state.push (.alternatives [word lead, []]) with previous := some '}' } =
      { state.view with previous := some '}' } := by
    simp [State.view, State.push, empty, State.inBraces]
  have within : Within (State.levels { state.push (.alternatives [word lead, []]) with previous := some '}' })
      state.levels (state.written lead).levels := by
    exact .current _ _ (Offers.choice state.level.current (word lead) [])
  have elsewhere : View.token { state.view with previous := some '}' } c rest = state.view.token c rest :=
    token_elsewhere state.view (some '}') c rest empty (by simp [View.atSegment]) plain
  obtain ⟨busy, token, next, told, taken, behind⟩ := read_all_step dialect strict state last c rest read
  have other (piece : Piece) : token ≠ .doubleStar piece := by
    rintro rfl
    exact plain busy piece told
  obtain ⟨bothNext, typedNext, bothTaken, typedTaken, ready⟩ := within.take token other taken
  have bothRead := read_all_taken dialect strict _ bothNext c rest busy token
    (by rw [bothView, elsewhere, told]) bothTaken
  have typedRead := read_all_taken dialect strict _ typedNext c rest busy token (by rw [typedView, told]) typedTaken
  rw [bothRead, typedRead]
  refine read_all_abreast dialect strict busy { bothNext with previous := some c }
    { next with previous := some c } { typedNext with previous := some c } last rest ⟨ready, rfl, rfl, ?_, ?_⟩ behind
  · exact (State.take_brackets _ _ token bothTaken).trans (State.take_brackets _ _ token taken).symm
  · exact (State.take_brackets _ _ token typedTaken).trans (State.take_brackets _ _ token taken).symm

end Reading

end BlockSearch.Glob
