import BlockSearch.Glob.Reader

/-!
Reading a glob token by token. What stands at a character is told by the text from there on and by little of what was read
before, and what it does to the open branch by no text at all. Main statements: `read_char_token` divides a step in this
way, and `View.token_tells` lists what can stand at a character.
-/

set_option autoImplicit false

namespace BlockSearch.Glob

structure View where
  begins : Bool
  inBraces : Bool
  previous : Option Char
  literalBrackets : Bool

def State.view (state : State) : View :=
  ⟨state.level.current.isEmpty, state.inBraces, state.previous, state.literalBrackets⟩

def starred (piece : Piece) : List Piece → List Piece
  | .anyAbove :: before => .anyAbove :: before
  | .anyBelow :: before => .anyBelow :: before
  | _ :: before => piece :: before
  | [] => [piece]

theorem State.double_star_eq (state : State) (piece : Piece) :
    state.doubleStar piece =
      { state with level := { state.level with current := starred piece state.level.current } } := by
  obtain ⟨⟨finished, current⟩, outer, previous, brackets⟩ := state
  cases current with
  | nil => rfl
  | cons last before => cases last <;> rfl

inductive Token where
  | piece (piece : Piece)
  -- Two stars that fill no segment.
  | twoStars
  -- Two stars that do, with the slash before them.
  | doubleStar (piece : Piece)
  | opening
  | closing
  | comma

def State.take (state : State) : Token → Except Cause State
  | .piece piece => .ok (state.push piece)
  | .twoStars => .ok ((state.push .anyRun).push .anyRun)
  | .doubleStar piece => .ok (state.doubleStar piece)
  | .opening => .ok state.openBraces
  | .closing => state.closeBraces
  | .comma => .ok state.comma

namespace View

def atSegment (view : View) : Bool :=
  view.previous == some '/' || (view.inBraces && (view.previous == some ',' || view.previous == some '{'))

-- What two stars stand for, by the character behind them. They take a slash with them.
def twoStarsToken (view : View) (next : Option Char) : Nat × Token :=
  if view.begins then
    if next = none then (1, .piece .anyAbove)
    else if next = some '/' then (2, .piece .anyAbove)
    else (1, .twoStars)
  else if view.atSegment then
    if next = some '/' then (2, .doubleStar .anyBetween)
    else if next = none ∨ (view.inBraces ∧ (next = some ',' ∨ next = some '}')) then (1, .doubleStar .anyBelow)
    else (1, .twoStars)
  else (1, .twoStars)

def starToken (view : View) : Text → Nat × Token
  | '*' :: rest => view.twoStarsToken rest.head?
  | _ => (0, .piece .anyRun)

def rangesToken (negated : Bool) (inner : Text) : Except Cause (Nat × Token) :=
  match readRanges [] true false (if negated then 1 else 0) inner with
  | .ok (ranges, count) => .ok (count, .piece (.byteClass negated ranges))
  | .error cause => .error cause

def classToken : Text → Except Cause (Nat × Token)
  | '!' :: inner => rangesToken true inner
  | '^' :: inner => rangesToken true inner
  | rest => rangesToken false rest

def escapeToken : Text → Except Cause (Nat × Token)
  | c :: _ => .ok (1, .piece (.literal c))
  | [] => .error .danglingEscape

def singleToken (c : Char) : Token :=
  if c = '?' then .piece .anyByte
  else if c = '{' then .opening
  else if c = '}' then .closing
  else if c = ',' then .comma
  else .piece (.literal c)

def token (view : View) (c : Char) (rest : Text) : Except Cause (Nat × Token) :=
  if c = '*' then .ok (view.starToken rest)
  else if c = '[' ∧ view.literalBrackets = false then classToken rest
  else if c = '\x5c' then escapeToken rest
  else .ok (0, singleToken c)

theorem single_token_ne (c : Char) (piece : Piece) : singleToken c ≠ .doubleStar piece := by
  unfold singleToken
  split
  · simp
  · split
    · simp
    · split
      · simp
      · split <;> simp

theorem token_cases (view : View) (c : Char) :
    (c = '*' ∧ ∀ rest, view.token c rest = .ok (view.starToken rest)) ∨
      (c = '[' ∧ ∀ rest, view.token c rest = classToken rest) ∨
      (c = '\x5c' ∧ ∀ rest, view.token c rest = escapeToken rest) ∨
      (c ≠ '*' ∧ c ≠ '\x5c' ∧ ∀ rest, view.token c rest = .ok (0, singleToken c)) := by
  by_cases star : c = '*'
  · exact .inl ⟨star, fun rest => if_pos star⟩
  · by_cases bracket : c = '[' ∧ view.literalBrackets = false
    · exact .inr (.inl ⟨bracket.1, fun rest => by rw [token, if_neg star, if_pos bracket]⟩)
    · by_cases escape : c = '\x5c'
      · exact .inr (.inr (.inl ⟨escape, fun rest => by rw [token, if_neg star, if_neg bracket, if_pos escape]⟩))
      · exact .inr (.inr (.inr
          ⟨star, escape, fun rest => by rw [token, if_neg star, if_neg bracket, if_neg escape]⟩))

end View

section Steps

variable (dialect : Dialect) (strict : dialect.loneBrackets = false)

theorem read_two_stars (state : State) (rest : Text) :
    readStar state ('*' :: rest) =
      (state.take (state.view.starToken ('*' :: rest)).2).map
        fun next => ((state.view.starToken ('*' :: rest)).1, next) := by
  have starts : (state.previous != some '/'
      && !(state.inBraces && (state.previous == some ',' || state.previous == some '{'))) =
        !state.view.atSegment := by
    rw [View.atSegment, Bool.not_or]
    rfl
  have begins : state.view.begins = state.level.current.isEmpty := rfl
  have braces : state.view.inBraces = state.inBraces := rfl
  unfold readStar View.starToken View.twoStarsToken
  dsimp only
  rw [starts, begins, braces]
  cases state.level.current.isEmpty with
  | true =>
      cases rest with
      | nil => rfl
      | cons c rest => by_cases slashed : c = '/' <;> simp [slashed, State.take, State.pushAll, Except.map]
  | false =>
      cases state.view.atSegment with
      | false => rfl
      | true =>
          cases rest with
          | nil => rfl
          | cons c rest =>
              by_cases slashed : c = '/'
              · simp [slashed, State.take, Except.map]
              · by_cases closing : state.inBraces = true ∧ (c = ',' ∨ c = '}') <;>
                  simp [slashed, closing, State.take, State.pushAll, Except.map]

theorem read_star_token (state : State) (rest : Text) :
    readStar state rest =
      (state.take (state.view.starToken rest).2).map fun next => ((state.view.starToken rest).1, next) := by
  cases rest with
  | nil => rfl
  | cons c rest =>
      by_cases star : c = '*'
      · rw [star]
        exact read_two_stars state rest
      · unfold readStar View.starToken
        simp [star, State.take, Except.map]

theorem class_token_of (rest : Text) (negated : Bool) (inner : Text)
    (begun : (match rest with
      | '!' :: inner => (true, inner)
      | '^' :: inner => (true, inner)
      | _ => (false, rest)) = (negated, inner)) : View.classToken rest = View.rangesToken negated inner := by
  split at begun
  · cases begun
    rfl
  · cases begun
    rfl
  · rename_i noBang noCaret
    cases begun
    unfold View.classToken
    split
    · exact absurd rfl (noBang _)
    · exact absurd rfl (noCaret _)
    · rfl

include strict in
theorem read_class_token (state : State) (rest : Text) :
    readClass dialect state rest =
      match View.classToken rest with
      | .ok (busy, token) => (state.take token).map fun next => (busy, next)
      | .error cause => .error cause := by
  unfold readClass
  split
  rename_i negated inner begun
  rw [class_token_of rest negated inner begun, View.rangesToken]
  cases readRanges [] true false (if negated then 1 else 0) inner with
  | ok read => rfl
  | error cause => cases cause <;> simp [strict]

theorem read_escape_token (state : State) (rest : Text) :
    readEscape state rest =
      match View.escapeToken rest with
      | .ok (busy, token) => (state.take token).map fun next => (busy, next)
      | .error cause => .error cause := by
  cases rest <;> rfl

include strict in
theorem read_char_token (state : State) (c : Char) (rest : Text) :
    readChar dialect state c rest =
      match state.view.token c rest with
      | .ok (busy, token) => (state.take token).map fun next => (busy, next)
      | .error cause => .error cause := by
  have brackets : state.view.literalBrackets = state.literalBrackets := rfl
  by_cases star : c = '*'
  · subst star
    exact read_star_token state rest
  · by_cases bracket : c = '[' ∧ state.literalBrackets = false
    · obtain ⟨rfl, closed⟩ := bracket
      simpa [readChar, View.token, brackets, closed] using read_class_token dialect strict state rest
    · by_cases escape : c = '\x5c'
      · subst escape
        exact read_escape_token state rest
      · have single : state.view.token c rest = .ok (0, View.singleToken c) := by
          rw [View.token, brackets, if_neg star, if_neg bracket, if_neg escape]
        rw [single, readChar, if_neg star, if_neg bracket, if_neg escape]
        unfold View.singleToken
        split
        · rfl
        · split
          · rfl
          · split
            · rfl
            · split <;> rfl

include strict in
theorem read_all_token (state : State) (c : Char) (rest : Text) :
    readAll dialect 0 state (c :: rest) =
      match state.view.token c rest with
      | .error cause => .error cause
      | .ok (busy, token) =>
          match state.take token with
          | .ok next => readAll dialect busy { next with previous := some c } rest
          | .error cause => .error cause := by
  rw [readAll, read_char_token dialect strict]
  cases state.view.token c rest with
  | error cause => rfl
  | ok told =>
      obtain ⟨busy, token⟩ := told
      dsimp only
      cases state.take token <;> rfl

include strict in
theorem read_all_taken (state next : State) (c : Char) (rest : Text) (busy : Nat) (token : Token)
    (told : state.view.token c rest = .ok (busy, token)) (taken : state.take token = .ok next) :
    readAll dialect 0 state (c :: rest) = readAll dialect busy { next with previous := some c } rest := by
  rw [read_all_token dialect strict, told]
  dsimp only
  rw [taken]

include strict in
theorem read_all_step (state last : State) (c : Char) (rest : Text)
    (read : readAll dialect 0 state (c :: rest) = .ok last) :
    ∃ busy token next, state.view.token c rest = .ok (busy, token) ∧ state.take token = .ok next ∧
      readAll dialect busy { next with previous := some c } rest = .ok last := by
  rw [read_all_token dialect strict] at read
  cases told : state.view.token c rest with
  | error cause => simp [told] at read
  | ok step =>
      obtain ⟨busy, token⟩ := step
      rw [told] at read
      dsimp only at read
      cases taken : state.take token with
      | error cause => simp [taken] at read
      | ok next =>
          rw [taken] at read
          exact ⟨busy, token, next, rfl, taken, read⟩

end Steps

section Told

theorem class_token_cons (c : Char) : ∃ negated : Bool, ∀ rest,
    View.classToken (c :: rest) = View.rangesToken negated ((if negated then [] else [c]) ++ rest) := by
  by_cases bang : c = '!'
  · exact ⟨true, fun rest => by rw [bang]; rfl⟩
  · by_cases caret : c = '^'
    · exact ⟨true, fun rest => by rw [caret]; rfl⟩
    · exact ⟨false, fun rest => by simp [View.classToken, bang, caret]⟩

theorem star_token_two (view : View) (rest : Text) : view.starToken ('*' :: rest) = view.twoStarsToken rest.head? := rfl

theorem star_token_one (view : View) (c : Char) (rest : Text) (other : c ≠ '*') :
    view.starToken (c :: rest) = (0, .piece .anyRun) := by
  simp [View.starToken, other]

theorem read_ranges_closed (ranges : List (Char × Char)) (atFront pending : Bool) (count : Nat) (text : Text)
    (read : List (Char × Char) × Nat) (closed : readRanges ranges atFront pending count text = .ok read) :
    ∃ inner rest, text = inner ++ ']' :: rest ∧ read.2 = count + inner.length + 1 := by
  have longer (c : Char) (count : Nat) (text : Text)
      (behind : ∃ inner rest, text = inner ++ ']' :: rest ∧ read.2 = count + 1 + inner.length + 1) :
      ∃ inner rest, c :: text = inner ++ ']' :: rest ∧ read.2 = count + inner.length + 1 := by
    obtain ⟨inner, rest, rfl, total⟩ := behind
    exact ⟨c :: inner, rest, rfl, by rw [total, List.length_cons]; omega⟩
  fun_induction readRanges ranges atFront pending count text with
  | case1 => cases closed
  | case2 ranges atFront pending count c rest closing =>
      cases closed
      exact ⟨[], rest, by rw [closing.1, List.nil_append], rfl⟩
  | case3 ranges atFront pending count c rest open' dash ih => exact longer c count rest (ih closed)
  | case4 ranges atFront pending count c rest open' noDash waits extended same ih => exact longer c count rest (ih closed)
  | case5 => cases closed
  | case6 ranges atFront pending count c rest open' noDash free ih => exact longer c count rest (ih closed)

namespace View

-- What a token says of its character and of the text behind it.
inductive Tells (view : View) (c : Char) : Text → Nat → Token → Prop
  | run (rest : Text) (star : c = '*') : Tells view c rest 0 (.piece .anyRun)
  | twoStars (rest : Text) (star : c = '*') : Tells view c ('*' :: rest) 1 .twoStars
  | aboveAll (star : c = '*') (begins : view.begins = true) : Tells view c ['*'] 1 (.piece .anyAbove)
  | above (rest : Text) (star : c = '*') (begins : view.begins = true) :
      Tells view c ('*' :: '/' :: rest) 2 (.piece .anyAbove)
  | between (rest : Text) (star : c = '*') : Tells view c ('*' :: '/' :: rest) 2 (.doubleStar .anyBetween)
  | below (rest : Text) (star : c = '*')
      (ends : rest.head? = none ∨ view.inBraces = true ∧ (rest.head? = some ',' ∨ rest.head? = some '}')) :
      Tells view c ('*' :: rest) 1 (.doubleStar .anyBelow)
  | byteClass (negated : Bool) (ranges : List (Char × Char)) (inner rest : Text) (bracket : c = '[') :
      Tells view c (inner ++ ']' :: rest) (inner.length + 1) (.piece (.byteClass negated ranges))
  | escape (d : Char) (rest : Text) (backslash : c = '\x5c') : Tells view c (d :: rest) 1 (.piece (.literal d))
  | single (rest : Text) (noStar : c ≠ '*') (noEscape : c ≠ '\x5c') : Tells view c rest 0 (singleToken c)

theorem two_stars_tells (view : View) (rest : Text) (busy : Nat) (token : Token)
    (told : view.twoStarsToken rest.head? = (busy, token)) : view.Tells '*' ('*' :: rest) busy token := by
  unfold twoStarsToken at told
  split at told
  · rename_i begins
    split at told
    · rename_i none
      rw [List.head?_eq_none_iff] at none
      cases none
      cases told
      exact .aboveAll rfl begins
    · split at told
      · rename_i slashed
        obtain ⟨behind, rfl⟩ := List.head?_eq_some_iff.mp slashed
        cases told
        exact .above behind rfl begins
      · cases told
        exact .twoStars rest rfl
  · split at told
    · split at told
      · rename_i slashed
        obtain ⟨behind, rfl⟩ := List.head?_eq_some_iff.mp slashed
        cases told
        exact .between behind rfl
      · split at told
        · rename_i ends
          cases told
          exact .below rest rfl ends
        · cases told
          exact .twoStars rest rfl
    · cases told
      exact .twoStars rest rfl

theorem ranges_tells (view : View) (c : Char) (bracket : c = '[') (negated : Bool) (lead inner : Text) (busy : Nat)
    (token : Token) (length : lead.length = if negated then 1 else 0)
    (told : rangesToken negated inner = .ok (busy, token)) : view.Tells c (lead ++ inner) busy token := by
  unfold rangesToken at told
  cases closed : readRanges [] true false (if negated then 1 else 0) inner with
  | error cause => simp [closed] at told
  | ok read =>
      obtain ⟨inside, rest, rfl, total⟩ := read_ranges_closed _ _ _ _ _ _ closed
      rw [← length, ← List.length_append] at total
      rw [closed] at told
      cases told
      rw [total, ← List.append_assoc]
      exact .byteClass negated read.1 (lead ++ inside) rest bracket

theorem token_tells (view : View) (c : Char) (rest : Text) (busy : Nat) (token : Token)
    (told : view.token c rest = .ok (busy, token)) : view.Tells c rest busy token := by
  rcases view.token_cases c with ⟨rfl, star⟩ | ⟨bracket, ranges⟩ | ⟨backslash, escape⟩ | ⟨noStar, noEscape, single⟩
  · rw [star, Except.ok.injEq] at told
    cases rest with
    | nil =>
        cases told
        exact .run [] rfl
    | cons d rest =>
        by_cases second : d = '*'
        · subst second
          exact two_stars_tells view rest busy token told
        · rw [star_token_one view d rest second] at told
          cases told
          exact .run (d :: rest) rfl
  · rw [ranges] at told
    cases rest with
    | nil => exact ranges_tells view c bracket false [] [] busy token rfl told
    | cons d rest =>
        obtain ⟨negated, same⟩ := class_token_cons d
        rw [same] at told
        cases negated with
        | true => exact ranges_tells view c bracket true [d] rest busy token rfl told
        | false => exact ranges_tells view c bracket false [] (d :: rest) busy token rfl told
  · rw [escape] at told
    cases rest with
    | nil => cases told
    | cons d rest =>
        cases told
        exact .escape d rest backslash
  · rw [single] at told
    cases told
    exact .single rest noStar noEscape

end View

end Told

end BlockSearch.Glob
