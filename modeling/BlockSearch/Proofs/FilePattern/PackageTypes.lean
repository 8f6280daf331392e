import BlockSearch.Proofs.Discovery.Planning
import BlockSearch.Proofs.FilePattern.Completion
import BlockSearch.Proofs.Glob.Fronts
import BlockSearch.Proofs.Glob.Offering
import BlockSearch.Proofs.Glob.Segments

set_option autoImplicit false

namespace BlockSearch

namespace Glob

def EndsPlainly (current : List Piece) : Prop :=
  current ≠ [] ∧ current.head? ≠ some .anyAbove ∧ current.head? ≠ some (.literal '.')

theorem is_match_current (source text : Text) (current : List Piece) (plain : EndsPlainly current) :
    (⟨source, current.reverse⟩ : Glob).isMatch text = allAccept List.isEmpty current.reverse (Text.utf8 text) := by
  obtain ⟨nonempty, noAbove, noPoint⟩ := plain
  cases current with
  | nil => exact absurd rfl nonempty
  | cons last before =>
      refine is_match_accepts source text _ last (by simp) ?_ ?_
      · rintro rfl
        exact noAbove rfl
      · rintro rfl
        exact noPoint rfl

theorem EndsPlainly.of_last (source : Text) (state : State) (read : readAll Plan.dialect 0 .start source = .ok state)
    (nonempty : state.level.current ≠ []) (last : Char) (ends : source.getLast? = some last) (noSlash : last ≠ '/')
    (noStar : last ≠ '*') (noPoint : last ≠ '.') : EndsPlainly state.level.current := by
  have settled := read_all_settled Plan.dialect rfl 0 .start state source (start_settled source) read
  have previous : state.previous = some last := by
    rw [read_all_previous Plan.dialect 0 .start state source read, ends, Option.some_or]
  obtain ⟨noAbove, point⟩ := settled.named last (by simp [lastRead, previous]) noSlash noStar
  exact ⟨nonempty, noAbove, fun named => noPoint (point named)⟩

theorem Topped.ends_plainly {both plain typed : List Piece} (topped : Topped both plain typed)
    (ends : EndsPlainly plain) : EndsPlainly both ∧ EndsPlainly typed := by
  cases topped with
  | piece last offers =>
      exact ⟨⟨List.cons_ne_nil _ _, ends.2⟩, ⟨List.cons_ne_nil _ _, ends.2⟩⟩
  | closed pieces offer => exact ⟨⟨by simp, by simp [group]⟩, ⟨by simp, by simp [group]⟩⟩

theorem Topped.nonempty {both plain typed : List Piece} (topped : Topped both plain typed) : plain ≠ [] := by
  cases topped <;> exact List.cons_ne_nil _ _

theorem Ready.outermost {both plain typed : State} (ready : Ready both.levels plain.levels typed.levels)
    (closed : plain.inBraces = false) :
    both.inBraces = false ∧ typed.inBraces = false ∧
      Topped both.level.current plain.level.current typed.level.current := by
  have none : plain.outer = [] := by simpa [State.inBraces] using closed
  refine ⟨ready.within.in_braces.1.trans closed, ready.within.in_braces.2.trans closed, ?_⟩
  obtain ⟨level, outer, previous, brackets⟩ := both
  obtain ⟨plainLevel, plainOuter, plainPrevious, plainBrackets⟩ := plain
  obtain ⟨typedLevel, typedOuter, typedPrevious, typedBrackets⟩ := typed
  obtain rfl : plainOuter = [] := none
  cases ready with
  | current finished outer topped => exact topped
  | finished current outer inside offer => exact absurd rfl inside
  | outer level within => cases within

end Glob

namespace FilePattern

open Glob

def typesDirectory : Text := "@types".toList

def typesPattern (before : List Text) (segment : Text) (after : List Text) : Text :=
  Text.joined ['/'] (before ++ packagesDirectory :: typesDirectory :: segment :: after)

def packagesFront (before : List Text) : Text := Text.joined ['/'] (before ++ [packagesDirectory])

def leaves (cause : Cause) (front : Text) : Bool :=
  match Glob.read Plan.dialect front with
  | .ok _ => false
  | .error other => other == cause

-- Whether two stars that begin a segment fill it or, in braces, an alternative.
def fillsSegment (inBraces : Bool) : Text → Bool
  | ['*', '*'] => true
  | '*' :: '*' :: c :: _ => inBraces && (c == ',' || c == '}')
  | _ => false

-- No class is open before the package, and its segment does not begin with a double star.
structure StandsApart (before : List Text) (segment : Text) : Prop where
  closed : leaves .unclosedClass (packagesFront before) = false
  plain : fillsSegment (leaves .unclosedBraces (packagesFront before)) segment = false

instance (before : List Text) (segment : Text) : Decidable (StandsApart before segment) :=
  decidable_of_iff
    (leaves .unclosedClass (packagesFront before) = false ∧
      fillsSegment (leaves .unclosedBraces (packagesFront before)) segment = false)
    ⟨fun both => ⟨both.1, both.2⟩, fun apart => ⟨apart.closed, apart.plain⟩⟩

-- So stands the package that the types are offered for with a pattern, if there is one.
def OffersApart (pattern : Text) : Prop :=
  ∀ before segment after, Text.pieces '/' pattern = before ++ packagesDirectory :: segment :: after →
    packagesDirectory ∉ before → segment ≠ [] → segment.head? ≠ some '@' → StandsApart before segment

theorem first_unique (before other a b : List Text) (name : Text) (first : name ∉ before) (firstToo : name ∉ other)
    (same : before ++ name :: a = other ++ name :: b) : before = other ∧ a = b := by
  induction before generalizing other with
  | nil =>
      cases other with
      | nil => exact ⟨rfl, (List.cons.inj same).2⟩
      | cons part other =>
          obtain ⟨rfl, -⟩ := List.cons.inj same
          exact absurd List.mem_cons_self firstToo
  | cons part before ih =>
      cases other with
      | nil =>
          obtain ⟨rfl, -⟩ := List.cons.inj same
          exact absurd List.mem_cons_self first
      | cons otherPart other =>
          obtain ⟨rfl, behind⟩ := List.cons.inj same
          obtain ⟨rfl, rest⟩ := ih other (fun inside => first (List.mem_cons_of_mem _ inside))
            (fun inside => firstToo (List.mem_cons_of_mem _ inside)) behind
          exact ⟨rfl, rest⟩

theorem offers_apart_at (pattern : Text) (before after : List Text) (segment : Text)
    (cut : Text.pieces '/' pattern = before ++ packagesDirectory :: segment :: after) (first : packagesDirectory ∉ before)
    (apart : StandsApart before segment) : OffersApart pattern := by
  intro other name others same firstToo _ _
  obtain ⟨rfl, behind⟩ := first_unique other before _ _ packagesDirectory firstToo first (same.symm.trans cut)
  obtain ⟨rfl, -⟩ := List.cons.inj behind
  exact apart

theorem leaves_class (front : Text) (cause : Cause) (fault : readAll Plan.dialect 0 .start front = .error cause) :
    leaves .unclosedClass front = (cause == .unclosedClass) := by
  rw [leaves, Glob.read, fault]

theorem leaves_braces (front : Text) (state : State) (read : readAll Plan.dialect 0 .start front = .ok state) :
    leaves .unclosedBraces front = state.inBraces := by
  rw [leaves, Glob.read, read]
  dsimp only
  cases state.inBraces <;> rfl

theorem two_stars_segment (segment tail behind : Text) (nonempty : segment ≠ [])
    (ends : tail.head? = none ∨ tail.head? = some '/') (cut : segment ++ tail = '*' :: '*' :: behind) :
    segment = ['*', '*'] ∨ ∃ d others, segment = '*' :: '*' :: d :: others ∧ behind.head? = some d := by
  match segment with
  | [] => exact absurd rfl nonempty
  | [c] =>
      obtain ⟨-, rest⟩ := List.cons.inj cut
      rw [show tail = '*' :: behind from rest] at ends
      simp at ends
  | [c, d] =>
      simp only [List.cons_append, List.cons.injEq] at cut
      exact .inl (by rw [cut.1, cut.2.1])
  | c :: d :: e :: others =>
      simp only [List.cons_append, List.cons.injEq] at cut
      exact .inr ⟨e, others, by rw [cut.1, cut.2.1], by rw [← cut.2.2]; rfl⟩

theorem fills_of_double_star (view : View) (segment tail : Text) (c : Char) (rest : Text) (busy : Nat) (piece : Piece)
    (nonempty : segment ≠ []) (free : '/' ∉ segment) (ends : tail.head? = none ∨ tail.head? = some '/')
    (cut : segment ++ tail = c :: rest) (told : view.token c rest = .ok (busy, .doubleStar piece)) :
    fillsSegment view.inBraces segment = true := by
  have tells := view.token_tells c rest busy _ told
  generalize same : Token.doubleStar piece = token at tells
  cases tells with
  | single rest noStar noEscape => exact absurd same.symm (View.single_token_ne c piece)
  | between behind star =>
      rw [star] at cut
      rcases two_stars_segment segment tail _ nonempty ends cut with rfl | ⟨d, others, rfl, next⟩
      · rfl
      · obtain rfl : '/' = d := Option.some.inj next
        simp at free
  | below behind star closing =>
      rw [star] at cut
      rcases two_stars_segment segment tail _ nonempty ends cut with rfl | ⟨d, others, rfl, next⟩
      · rfl
      · rw [next] at closing
        simpa [fillsSegment] using closing
  | _ => cases same

section Offered

variable (before after : List Text) (segment : Text)

theorem packages_front_joined (parts : List Text) (some : parts ≠ []) :
    Text.joined ['/'] (before ++ packagesDirectory :: parts) =
      packagesFront before ++ '/' :: Text.joined ['/'] parts := by
  have divided := Text.joined_divided '/' (before ++ [packagesDirectory]) parts (by simp) some
  rwa [List.append_assoc, List.singleton_append] at divided

theorem read_packages_front (closed : leaves .unclosedClass (packagesFront before) = false) (more : Text) (last : State)
    (read : readAll Plan.dialect 0 .start (packagesFront before ++ more) = .ok last) :
    ∃ state, readAll Plan.dialect 0 .start (packagesFront before) = .ok state ∧
      ∀ more, readAll Plan.dialect 0 .start (packagesFront before ++ more) = readAll Plan.dialect 0 state more := by
  have ends : EndsFront 's' := by decide
  have front : packagesFront before = (Text.terminated '/' before ++ "node_module".toList) ++ ['s'] := by
    rw [packagesFront, Text.joined_append_last, List.append_assoc]
    rfl
  rw [front] at closed read ⊢
  cases begun : readAll Plan.dialect 0 .start ((Text.terminated '/' before ++ "node_module".toList) ++ ['s']) with
  | error cause =>
      have lasting : cause ≠ .unclosedClass := by
        rintro rfl
        rw [leaves_class _ _ begun] at closed
        cases closed
      obtain ⟨other, fault⟩ := read_all_fault more Plan.dialect rfl 's' ends 0 .start _ (Nat.zero_le _) cause begun
        (.inl lasting)
      rw [List.append_assoc, List.singleton_append, fault] at read
      cases read
  | ok state =>
      refine ⟨state, rfl, fun more => ?_⟩
      rw [List.append_assoc, List.singleton_append]
      exact read_all_front more Plan.dialect rfl 's' ends 0 .start state _ (Nat.zero_le _) begun

theorem read_types_offered (state last : State) (c : Char) (rest : Text)
    (plain : ∀ busy piece, (state.written ['/']).view.token c rest ≠ .ok (busy, .doubleStar piece))
    (read : readAll Plan.dialect 0 state ('/' :: c :: rest) = .ok last) :
    ∃ bothLast typedLast,
      readAll Plan.dialect 0 state ('/' :: (typesAlternative ++ c :: rest)) = .ok bothLast ∧
      readAll Plan.dialect 0 state ('/' :: ("@types/".toList ++ c :: rest)) = .ok typedLast ∧
        Ready bothLast.levels last.levels typedLast.levels := by
  have slash (more : Text) :
      readAll Plan.dialect 0 state ('/' :: more) = readAll Plan.dialect 0 (state.written ['/']) more :=
    read_word Plan.dialect state ['/'] more (List.all_eq_true.mp (by decide))
  have choice := read_braces Plan.dialect (state.written ['/']) "@types/".toList [[]] (c :: rest)
    (all_ordinary _ (by decide))
  have typed := read_word Plan.dialect (state.written ['/']) "@types/".toList (c :: rest)
    (List.all_eq_true.mp (by decide))
  have same : braces ["@types/".toList, []] = typesAlternative := by decide
  rw [same] at choice
  rw [slash] at read
  rw [slash, slash, choice, typed]
  exact read_all_offered Plan.dialect rfl _ last "@types/".toList c rest (by simp [State.written, word]) rfl (by decide)
    plain read

-- A glob stays one with the types offered in it, and matches what it matched and what the types' glob matches.
theorem offered (pattern : Text) (glob : Glob)
    (cut : Text.pieces '/' pattern = before ++ packagesDirectory :: segment :: after) (nonempty : segment ≠ [])
    (last : Char) (ends : pattern.getLast? = some last) (noSlash : last ≠ '/') (noStar : last ≠ '*')
    (noPoint : last ≠ '.') (read : Plan.readGlob pattern = .ok glob) (apart : StandsApart before segment) :
    ∃ mapped types,
      Plan.readGlob (Text.joined ['/'] (before ++ packagesDirectory :: (typesAlternative ++ segment) :: after)) =
        .ok mapped ∧
      Plan.readGlob (typesPattern before segment after) = .ok types ∧
        ∀ path, mapped.isMatch path = (glob.isMatch path || types.isMatch path) := by
  obtain ⟨state, whole, closed, rfl⟩ := (read_glob_iff pattern glob).mp read
  have plainText : pattern = packagesFront before ++ '/' :: Text.joined ['/'] (segment :: after) := by
    rw [← packages_front_joined before _ (List.cons_ne_nil _ _), ← cut, Text.joined_pieces]
  have bothText : Text.joined ['/'] (before ++ packagesDirectory :: (typesAlternative ++ segment) :: after) =
      packagesFront before ++ '/' :: (typesAlternative ++ Text.joined ['/'] (segment :: after)) := by
    rw [packages_front_joined before _ (List.cons_ne_nil _ _), Text.joined_prepend]
  have typedText : typesPattern before segment after =
      packagesFront before ++ '/' :: ("@types/".toList ++ Text.joined ['/'] (segment :: after)) := by
    rw [typesPattern, packages_front_joined before _ (List.cons_ne_nil _ _),
      Text.joined_cons '/' typesDirectory _ (List.cons_ne_nil _ _)]
    rfl
  obtain ⟨tail, leads, behindTail⟩ := Text.joined_leads '/' segment after
  obtain ⟨c, name, rfl⟩ := List.exists_cons_of_ne_nil nonempty
  rw [leads, List.cons_append] at plainText bothText typedText
  obtain ⟨front, begun, onward⟩ := read_packages_front before apart.closed _ state (plainText ▸ whole)
  have plain (busy : Nat) (piece : Piece) :
      (front.written ['/']).view.token c (name ++ tail) ≠ .ok (busy, .doubleStar piece) := by
    intro told
    have free := Text.piece_free '/' pattern (c :: name) (by simp [cut])
    have fills := fills_of_double_star _ (c :: name) tail c (name ++ tail) busy piece nonempty free behindTail rfl told
    have apartHere := apart.plain
    rw [leaves_braces _ front begun] at apartHere
    exact absurd fills (by rw [show (front.written ['/']).view.inBraces = front.inBraces from rfl, apartHere]; simp)
  have behind : readAll Plan.dialect 0 front ('/' :: c :: (name ++ tail)) = .ok state := by
    rw [← onward, ← plainText, whole]
  obtain ⟨both, typed, bothRead, typedRead, ready⟩ := read_types_offered front state c (name ++ tail) plain behind
  obtain ⟨bothClosed, typedClosed, topped⟩ := ready.outermost closed
  have endsPlainly := EndsPlainly.of_last pattern state whole topped.nonempty last ends noSlash noStar noPoint
  obtain ⟨bothEnds, typedEnds⟩ := topped.ends_plainly endsPlainly
  refine ⟨_, _, (read_glob_iff _ _).mpr ⟨both, ?_, bothClosed, rfl⟩,
    (read_glob_iff _ _).mpr ⟨typed, ?_, typedClosed, rfl⟩, fun path => ?_⟩
  · rw [bothText, onward, bothRead]
  · rw [typedText, onward, typedRead]
  · rw [is_match_current _ _ _ bothEnds, is_match_current _ _ _ endsPlainly, is_match_current _ _ _ typedEnds]
    exact topped.offers _ _

end Offered

theorem names_extension_last (pattern : Text) (named : namesExtension pattern = true) :
    ∃ c, pattern.getLast? = some c ∧ (CharClass.isAsciiAlphanumeric c = true ∨ c = '}') := by
  have ends (segment front extension : Text) (cut : segment = front ++ extension) (c : Char)
      (last : extension.getLast? = some c) : segment.getLast? = some c := by
    rw [cut, List.getLast?_append, last, Option.some_or]
  rw [namesExtension, segmentNamesExtension, Bool.or_eq_true] at named
  rcases named with default | named
  · obtain ⟨extension, member, stemmed⟩ := List.any_eq_true.mp default
    have letters : ∀ extension ∈ defaultExtensions, extension.getLast?.any CharClass.isAsciiAlphanumeric = true := by
      decide +kernel
    obtain ⟨c, last, letter⟩ := (Option.any_eq_true _ _).mp (letters extension member)
    split at stemmed
    · rename_i stem cut
      have whole := Text.before_tail_eq _ _ _ cut
      rw [List.append_cons] at whole
      exact ⟨c, last_segment_ends pattern c (ends _ _ _ whole c last), .inl letter⟩
    · cases stemmed
  · split at named
    · rename_i stem alternatives braced
      rw [bracedExtensions] at braced
      split at braced
      · rename_i front rest cut
        obtain ⟨inner, closing, -⟩ := Option.map_eq_some_iff.mp braced
        have whole := Text.split_at_last_eq _ _ _ _ cut
        rw [Text.before_tail_eq _ _ _ closing, ← List.append_assoc] at whole
        exact ⟨'}', last_segment_ends pattern '}' (ends _ _ _ whole '}' rfl), .inr rfl⟩
      · cases braced
    · rw [endsInShortExtension] at named
      split at named
      · rename_i stem extension cut
        simp only [Bool.and_eq_true, Bool.not_eq_true', List.isEmpty_eq_false_iff, List.all_eq_true] at named
        obtain ⟨⟨⟨-, nonempty⟩, -⟩, letters⟩ := named
        have last := List.getLast?_eq_some_getLast nonempty
        refine ⟨_, last_segment_ends pattern _ (ends _ _ _ (Text.split_at_last_eq _ _ _ _ cut) _ last), .inl ?_⟩
        exact letters _ (List.getLast_mem nonempty)
      · cases named

-- Completing the pattern of a file below `node_modules` adds what the pattern matches with the types' directory as one
-- more segment, and nothing else.
theorem complete_offers_types (pattern : Text) (before after : List Text) (segment : Text) (glob : Glob)
    (cut : Text.pieces '/' pattern = before ++ packagesDirectory :: segment :: after)
    (first : packagesDirectory ∉ before) (nonempty : segment ≠ []) (unscoped : segment.head? ≠ some '@')
    (named : namesExtension pattern = true) (read : Plan.readGlob pattern = .ok glob)
    (apart : StandsApart before segment) :
    ∃ mapped types, Plan.readGlob (complete pattern) = .ok mapped ∧
      Plan.readGlob (typesPattern before segment after) = .ok types ∧
        ∀ path, mapped.isMatch path = true ↔ glob.isMatch path = true ∨ types.isMatch path = true := by
  obtain ⟨last, ends, plain⟩ := names_extension_last pattern named
  have noMark (mark : Char) (special : CharClass.isAsciiAlphanumeric mark = false ∧ mark ≠ '}') : last ≠ mark := by
    rintro rfl
    rcases plain with letter | brace
    · rw [special.1] at letter
      cases letter
    · exact special.2 brace
  obtain ⟨mapped, types, mappedRead, typesRead, same⟩ := offered before after segment pattern glob cut nonempty last ends
    (noMark '/' (by decide)) (noMark '*' (by decide)) (noMark '.' (by decide)) read apart
  obtain ⟨c, name, rfl⟩ := List.exists_cons_of_ne_nil nonempty
  have rewritten : complete pattern =
      Text.joined ['/'] (before ++ packagesDirectory :: (typesAlternative ++ c :: name) :: after) := by
    rw [complete_named pattern named, withTypesPackage, cut,
      offer_types_first before after c name first fun scope => unscoped (congrArg some scope)]
  exact ⟨mapped, types, rewritten ▸ mappedRead, typesRead, fun path => by rw [same path, Bool.or_eq_true]⟩

theorem complete_offers_types_of_any_package :
    let pattern := "lib/node_modules/*/index.d.ts".toList
    ∃ glob mapped types, Plan.readGlob pattern = .ok glob ∧ Plan.readGlob (complete pattern) = .ok mapped ∧
      Plan.readGlob "lib/node_modules/@types/*/index.d.ts".toList = .ok types ∧
        ∀ path, mapped.isMatch path = true ↔ glob.isMatch path = true ∨ types.isMatch path = true := by
  intro pattern
  let glob : Glob := ⟨pattern, word "lib/node_modules/".toList ++ .anyRun :: word "/index.d.ts".toList⟩
  have read : Plan.readGlob pattern = .ok glob := by rfl
  obtain ⟨mapped, types, mappedRead, typesRead, same⟩ := complete_offers_types pattern ["lib".toList]
    ["index.d.ts".toList] ['*'] glob (by decide +kernel) (by decide +kernel) (by decide) (by decide) (by decide +kernel)
    read (by decide +kernel)
  exact ⟨glob, mapped, types, read, mappedRead, typesRead, same⟩

-- Behind the brace the two stars fill no segment any more, and stay within a directory.
theorem deep_package_missed :
    let pattern := "node_modules/**/index.d.ts".toList
    let path := "node_modules/a/b/index.d.ts".toList
    Text.pieces '/' pattern = [packagesDirectory, "**".toList, "index.d.ts".toList] ∧ namesExtension pattern = true ∧
      (Plan.readGlob pattern).toOption.map (fun glob => glob.isMatch path) = some true ∧
      (Plan.readGlob (complete pattern)).toOption.map (fun mapped => mapped.isMatch path) = some false := by
  decide +kernel

end FilePattern

end BlockSearch
