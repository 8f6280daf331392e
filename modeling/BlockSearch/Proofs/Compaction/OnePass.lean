import BlockSearch.Compaction.Delimited
import Mathlib.Order.Bounds.Basic

set_option autoImplicit false

namespace BlockSearch.Compaction

structure Segment where
  start : Nat
  stop : Nat
deriving DecidableEq, Repr

def StandsAt (mark text : Text) (i : Nat) : Prop := mark <+: text.drop i

def GapBefore (text : Text) (i : Nat) : Prop := ∃ before c, before + 1 = i ∧ text[before]? = some c ∧ isGap c = true

-- An opener for one who reads from a place on, which is the beginning of the text or the end of a comment.
structure OpensAt (text : Text) (place : Nat) (delimiter : Delimiter) (i : Nat) : Prop where
  reached : place ≤ i
  opener : StandsAt delimiter.opener text i
  free : delimiter = .block → i = place ∨ GapBefore text i

structure FirstOpens (text : Text) (place : Nat) (delimiter : Delimiter) (i : Nat) : Prop where
  opens : OpensAt text place delimiter i
  least : IsLeast {j | ∃ other, OpensAt text place other j} i

def closers (text : Text) (place : Nat) (delimiter : Delimiter) : Set Nat :=
  {i | place ≤ i ∧ StandsAt delimiter.closer text i}

-- The comments that are found from a place on.
inductive Scans (text : Text) : Nat → List Segment → Prop where
  | plain (place : Nat) (none : ∀ delimiter i, ¬ OpensAt text place delimiter i) : Scans text place []
  | unclosed (place i : Nat) (delimiter : Delimiter) (opens : FirstOpens text place delimiter i)
      (none : ∀ j, j ∉ closers text (i + delimiter.opener.length) delimiter) : Scans text place []
  | comment (place i j : Nat) (delimiter : Delimiter) (segments : List Segment) (opens : FirstOpens text place delimiter i)
      (closes : IsLeast (closers text (i + delimiter.opener.length) delimiter) j)
      (rest : Scans text (j + delimiter.closer.length) segments) :
      Scans text place (⟨i, j + delimiter.closer.length⟩ :: segments)

def covered (segments : List Segment) (i : Nat) : Bool :=
  segments.any fun segment => decide (segment.start ≤ i ∧ i < segment.stop)

def outside (segments : List Segment) (number : Nat) (text : Text) : Text :=
  ((text.zipIdx number).filter fun place => !covered segments place.2).map Prod.fst

section Least

variable {places others : Set Nat} {k n : Nat}

theorem least_shifted (behind : ∀ i ∈ places, k ≤ i) (shifted : ∀ i, k + i ∈ places ↔ i ∈ others)
    (least : IsLeast others n) : IsLeast places (k + n) := by
  refine ⟨(shifted n).mpr least.1, fun i member => ?_⟩
  obtain ⟨further, rfl⟩ := Nat.exists_eq_add_of_le (behind i member)
  exact Nat.add_le_add_left (least.2 ((shifted further).mp member)) k

def CutsFirst (places : Set Nat) : Option (Text × Text) → Prop
  | some (front, _) => IsLeast places front.length
  | none => ∀ i, i ∉ places

theorem cuts_here (back : Text) (here : 0 ∈ places) : CutsFirst places (some ([], back)) :=
  ⟨here, fun i _ => Nat.zero_le i⟩

theorem cuts_behind (c : Char) (found : Option (Text × Text)) (free : 0 ∉ places)
    (shifted : ∀ i, 1 + i ∈ places ↔ i ∈ others) (cuts : CutsFirst others found) :
    CutsFirst places (found.map fun (front, back) => (c :: front, back)) := by
  have behind (i : Nat) (member : i ∈ places) : 1 ≤ i := Nat.one_le_iff_ne_zero.mpr fun zero => free (zero ▸ member)
  cases found with
  | none =>
      intro i member
      obtain ⟨further, rfl⟩ := Nat.exists_eq_add_of_le (behind i member)
      exact cuts further ((shifted further).mp member)
  | some cut =>
      have least := least_shifted behind shifted cuts
      rwa [Nat.add_comm] at least

end Least

section Places

theorem stands_at_append (mark front text : Text) (i : Nat) :
    StandsAt mark (front ++ text) (front.length + i) ↔ StandsAt mark text i := by
  rw [StandsAt, List.drop_length_add_append, StandsAt]

theorem gap_before_append (front text : Text) (i : Nat) (behind : 0 < i) :
    GapBefore (front ++ text) (front.length + i) ↔ GapBefore text i := by
  obtain ⟨before, rfl⟩ := Nat.exists_eq_succ_of_ne_zero (Nat.ne_of_gt behind)
  constructor
  · rintro ⟨other, c, same, found, gap⟩
    obtain rfl : front.length + before = other := by omega
    rw [List.getElem?_append_right (Nat.le_add_right _ _), Nat.add_sub_cancel_left] at found
    exact ⟨before, c, rfl, found, gap⟩
  · rintro ⟨other, c, same, found, gap⟩
    obtain rfl := Nat.succ.inj same
    refine ⟨front.length + other, c, rfl, ?_, gap⟩
    rw [List.getElem?_append_right (Nat.le_add_right _ _), Nat.add_sub_cancel_left]
    exact found

theorem opens_at_append (front text : Text) (delimiter : Delimiter) (i : Nat) :
    OpensAt (front ++ text) front.length delimiter (front.length + i) ↔ OpensAt text 0 delimiter i := by
  have free : front.length + i = front.length ∨ GapBefore (front ++ text) (front.length + i) ↔ i = 0 ∨ GapBefore text i := by
    rcases Nat.eq_zero_or_pos i with rfl | behind
    · simp
    · rw [gap_before_append front text i behind]
      simp
  constructor
  · rintro ⟨-, opener, allowed⟩
    exact ⟨Nat.zero_le i, (stands_at_append _ front text i).mp opener, fun block => free.mp (allowed block)⟩
  · rintro ⟨-, opener, allowed⟩
    exact ⟨Nat.le_add_right _ i, (stands_at_append _ front text i).mpr opener, fun block => free.mpr (allowed block)⟩

theorem stands_here_iff (mark text : Text) : StandsAt mark text 0 ↔ ∃ rest, Text.afterLead mark text = some rest := by
  constructor
  · rintro ⟨rest, same⟩
    exact ⟨rest, by rw [← List.drop_zero (l := text), ← same]; exact Text.after_lead_append mark rest⟩
  · rintro ⟨rest, lead⟩
    exact ⟨rest, (Text.after_lead_eq mark text rest lead).symm⟩

theorem stands_at_nil (mark : Text) (some : mark ≠ []) (i : Nat) : ¬ StandsAt mark [] i := by
  rw [StandsAt, List.drop_nil, List.prefix_nil]
  exact some

theorem split_at_first_cuts (mark text : Text) (some : mark ≠ []) :
    CutsFirst {i | StandsAt mark text i} (Text.splitAtFirst mark text) := by
  induction text with
  | nil => exact stands_at_nil mark some
  | cons c rest ih =>
      rw [Text.splitAtFirst]
      cases lead : Text.afterLead mark (c :: rest) with
      | some back => exact cuts_here back ((stands_here_iff mark (c :: rest)).mpr ⟨back, lead⟩)
      | none =>
          refine cuts_behind c _ ?_ (stands_at_append mark [c] rest) ih
          intro here
          obtain ⟨back, found⟩ := (stands_here_iff mark (c :: rest)).mp here
          rw [lead] at found
          cases found

def blockPlaces (free : Bool) (text : Text) : Set Nat :=
  {i | StandsAt Delimiter.block.opener text i ∧ (i = 0 ∧ free = true ∨ GapBefore text i)}

theorem block_places_cons (free : Bool) (c : Char) (rest : Text) (i : Nat) :
    1 + i ∈ blockPlaces free (c :: rest) ↔ i ∈ blockPlaces (isGap c) rest := by
  have stands : StandsAt Delimiter.block.opener (c :: rest) (1 + i) ↔ StandsAt Delimiter.block.opener rest i :=
    stands_at_append _ [c] rest i
  have before : GapBefore (c :: rest) (1 + i) ↔ i = 0 ∧ isGap c = true ∨ GapBefore rest i := by
    rcases Nat.eq_zero_or_pos i with rfl | behind
    · simp [GapBefore]
    · have moved : GapBefore (c :: rest) (1 + i) ↔ GapBefore rest i := gap_before_append [c] rest i behind
      simp [moved, Nat.ne_of_gt behind]
  simp [blockPlaces, stands, before]

theorem split_at_block_cuts (free : Bool) (text : Text) : CutsFirst (blockPlaces free text) (splitAtBlock free text) := by
  induction text generalizing free with
  | nil => exact fun i member => stands_at_nil _ (List.cons_ne_nil _ _) i member.1
  | cons c rest ih =>
      rw [splitAtBlock]
      split
      · rename_i body lead
        have allowed : free = true := by
          by_contra refused
          simp [refused] at lead
        rw [if_pos allowed] at lead
        exact cuts_here body ⟨(stands_here_iff _ _).mpr ⟨body, lead⟩, .inl ⟨rfl, allowed⟩⟩
      · rename_i refused
        refine cuts_behind c _ ?_ (block_places_cons free c rest) (ih (isGap c))
        rintro ⟨here, ⟨-, allowed⟩ | ⟨before, d, same, -⟩⟩
        · obtain ⟨body, lead⟩ := (stands_here_iff _ _).mp here
          rw [if_pos allowed, lead] at refused
          cases refused
        · exact absurd same (Nat.succ_ne_zero before)

end Places

section Opening

variable (text : Text)

theorem block_openers : {i | OpensAt text 0 .block i} = blockPlaces true text := by
  ext i
  constructor
  · rintro ⟨-, opener, allowed⟩
    exact ⟨opener, (allowed rfl).imp_left fun zero => ⟨zero, rfl⟩⟩
  · rintro ⟨opener, allowed⟩
    exact ⟨Nat.zero_le i, opener, fun _ => allowed.imp_left And.left⟩

theorem documentation_openers :
    {i | OpensAt text 0 .documentation i} = {i | StandsAt Delimiter.documentation.opener text i} := by
  ext i
  exact ⟨OpensAt.opener, fun opener => ⟨Nat.zero_le i, opener, nofun⟩⟩

-- An opener is the first one if there is none of its kind and none of the other before it.
theorem first_of_kinds (delimiter other : Delimiter) (different : delimiter ≠ other) {i : Nat}
    (own : IsLeast {j | OpensAt text 0 delimiter j} i) (later : ∀ j, OpensAt text 0 other j → i ≤ j) :
    FirstOpens text 0 delimiter i := by
  refine ⟨own.1, ⟨delimiter, own.1⟩, ?_⟩
  rintro j ⟨kind, opens⟩
  by_cases same : kind = delimiter
  · exact own.2 (same ▸ opens)
  · have second : kind = other := by cases kind <;> cases delimiter <;> cases other <;> simp_all
    exact later j (second ▸ opens)

def FindsFirst : Option (Text × Delimiter × Text) → Prop
  | some (front, delimiter, _) => FirstOpens text 0 delimiter front.length
  | none => ∀ delimiter i, ¬ OpensAt text 0 delimiter i

theorem first_opening_finds : FindsFirst text (firstOpening text) := by
  have blocks := block_openers text ▸ split_at_block_cuts true text
  have documentations := documentation_openers text ▸
    split_at_first_cuts Delimiter.documentation.opener text (List.cons_ne_nil _ _)
  unfold firstOpening
  cases block : splitAtBlock true text with
  | none =>
      rw [block] at blocks
      cases documentation : Text.splitAtFirst Delimiter.documentation.opener text with
      | none =>
          rw [documentation] at documentations
          rintro (_ | _)
          · exact blocks
          · exact documentations
      | some cut =>
          rw [documentation] at documentations
          exact first_of_kinds text .documentation .block nofun documentations fun j opens => absurd opens (blocks j)
  | some found =>
      rw [block] at blocks
      cases documentation : Text.splitAtFirst Delimiter.documentation.opener text with
      | none =>
          rw [documentation] at documentations
          exact first_of_kinds text .block .documentation nofun blocks fun j opens => absurd opens (documentations j)
      | some cut =>
          rw [documentation] at documentations
          dsimp only
          split
          · rename_i before
            exact first_of_kinds text .block .documentation nofun blocks fun j opens =>
              Nat.le_trans before (documentations.2 opens)
          · rename_i before
            exact first_of_kinds text .documentation .block nofun documentations fun j opens =>
              Nat.le_trans (Nat.le_of_not_le before) (blocks.2 opens)

end Opening

-- The places, for one who has already passed a front of the text.
section Further

variable (front text : Text)

theorem first_opens_append {delimiter : Delimiter} {i : Nat} (first : FirstOpens text 0 delimiter i) :
    FirstOpens (front ++ text) front.length delimiter (front.length + i) := by
  refine ⟨(opens_at_append front text delimiter i).mpr first.opens, least_shifted ?_ ?_ first.least⟩
  · rintro j ⟨other, opens⟩
    exact opens.reached
  · intro j
    simp only [Set.mem_ofPred_eq, opens_at_append]

theorem none_opens_append (none : ∀ delimiter i, ¬ OpensAt text 0 delimiter i) (delimiter : Delimiter) (i : Nat) :
    ¬ OpensAt (front ++ text) front.length delimiter i := by
  intro opens
  obtain ⟨further, rfl⟩ := Nat.exists_eq_add_of_le opens.reached
  exact none delimiter further ((opens_at_append front text delimiter further).mp opens)

theorem closers_append (delimiter : Delimiter) (i : Nat) :
    front.length + i ∈ closers (front ++ text) front.length delimiter ↔ StandsAt delimiter.closer text i := by
  rw [closers, Set.mem_ofPred_eq, stands_at_append]
  simp

theorem first_closer_append (delimiter : Delimiter) (inner rest : Text)
    (closing : Text.splitAtFirst delimiter.closer text = some (inner, rest)) :
    IsLeast (closers (front ++ text) front.length delimiter) (front.length + inner.length) := by
  have cuts := split_at_first_cuts delimiter.closer text (List.ne_nil_of_length_pos delimiter.closer_length_pos)
  rw [closing] at cuts
  exact least_shifted (fun _ member => member.1) (closers_append front text delimiter) cuts

theorem no_closer_append (delimiter : Delimiter) (unclosed : Text.splitAtFirst delimiter.closer text = none) (i : Nat) :
    i ∉ closers (front ++ text) front.length delimiter := by
  have cuts := split_at_first_cuts delimiter.closer text (List.ne_nil_of_length_pos delimiter.closer_length_pos)
  rw [unclosed] at cuts
  intro member
  obtain ⟨further, rfl⟩ := Nat.exists_eq_add_of_le member.1
  exact cuts further ((closers_append front text delimiter further).mp member)

end Further

section Outside

variable (segments others : List Segment) (number : Nat) (text more : Text)

theorem outside_append :
    outside segments number (text ++ more) =
      outside segments number text ++ outside segments (number + text.length) more := by
  rw [outside, List.zipIdx_append, List.filter_append, List.map_append, outside, outside]

theorem outside_all (free : ∀ i, number ≤ i → i < number + text.length → covered segments i = false) :
    outside segments number text = text := by
  have all : (text.zipIdx number).filter (fun place => !covered segments place.2) = text.zipIdx number := by
    refine List.filter_eq_self.mpr fun place member => ?_
    rw [free place.2 (List.le_snd_of_mem_zipIdx member) (List.snd_lt_add_of_mem_zipIdx member), Bool.not_false]
  rw [outside, all, List.zipIdx_map_fst]

theorem outside_none (inside : ∀ i, number ≤ i → i < number + text.length → covered segments i = true) :
    outside segments number text = [] := by
  have none : (text.zipIdx number).filter (fun place => !covered segments place.2) = [] := by
    refine List.filter_eq_nil_iff.mpr fun place member => ?_
    rw [inside place.2 (List.le_snd_of_mem_zipIdx member) (List.snd_lt_add_of_mem_zipIdx member)]
    exact Bool.false_ne_true
  rw [outside, none, List.map_nil]

theorem outside_same (same : ∀ i, number ≤ i → covered segments i = covered others i) :
    outside segments number text = outside others number text := by
  have kept : (text.zipIdx number).filter (fun place => !covered segments place.2) =
      (text.zipIdx number).filter (fun place => !covered others place.2) :=
    List.filter_congr fun place member => by rw [same place.2 (List.le_snd_of_mem_zipIdx member)]
  rw [outside, kept, outside]

theorem covered_before (i : Nat) (before : ∀ segment ∈ segments, i < segment.start) : covered segments i = false := by
  refine List.any_eq_false.mpr fun segment member => ?_
  have later := before segment member
  simp only [decide_eq_true_eq]
  omega

end Outside

theorem outside_comment (front comment rest : Text) (number : Nat) (segments : List Segment)
    (later : ∀ segment ∈ segments, number + front.length + comment.length ≤ segment.start) :
    outside (⟨number + front.length, number + front.length + comment.length⟩ :: segments) number
        (front ++ (comment ++ rest)) =
      front ++ outside segments (number + front.length + comment.length) rest := by
  rw [outside_append, outside_append]
  have before := outside_all (⟨number + front.length, number + front.length + comment.length⟩ :: segments) number front
    fun i _ upto => covered_before _ i fun segment member => by
      rcases List.mem_cons.mp member with rfl | behind
      · exact upto
      · have far := later segment behind
        omega
  have within := outside_none (⟨number + front.length, number + front.length + comment.length⟩ :: segments)
    (number + front.length) comment fun i reached upto => by simp [covered, reached, upto]
  have behind := outside_same (⟨number + front.length, number + front.length + comment.length⟩ :: segments) segments
    (number + front.length + comment.length) rest fun i reached => by
      have passed : ¬ (number + front.length ≤ i ∧ i < number + front.length + comment.length) := by omega
      simp [covered, passed]
  rw [before, within, behind, List.nil_append]

theorem opens_unique {text : Text} {place i : Nat} {a b : Delimiter} (first : OpensAt text place a i)
    (second : OpensAt text place b i) : a = b := by
  have lead := List.prefix_or_prefix_of_prefix first.opener second.opener
  cases a <;> cases b <;> first | rfl | exact absurd lead (by decide)

theorem Scans.unique {text : Text} {place : Nat} {segments others : List Segment} (scan : Scans text place segments)
    (again : Scans text place others) : others = segments := by
  induction scan generalizing others with
  | plain place none =>
      cases again with
      | plain => rfl
      | unclosed _ i delimiter opens => exact absurd opens.opens (none delimiter i)
      | comment _ i _ delimiter _ opens => exact absurd opens.opens (none delimiter i)
  | unclosed place i delimiter opens none =>
      cases again with
      | plain => rfl
      | unclosed => rfl
      | comment _ i' j delimiter' _ opens' closes =>
          obtain rfl := opens.least.unique opens'.least
          obtain rfl := opens_unique opens.opens opens'.opens
          exact absurd closes.1 (none j)
  | comment place i j delimiter segments opens closes rest ih =>
      cases again with
      | plain _ none => exact absurd opens.opens (none delimiter i)
      | unclosed _ i' delimiter' opens' none =>
          obtain rfl := opens.least.unique opens'.least
          obtain rfl := opens_unique opens.opens opens'.opens
          exact absurd closes.1 (none j)
      | comment _ i' j' delimiter' _ opens' closes' rest' =>
          obtain rfl := opens.least.unique opens'.least
          obtain rfl := opens_unique opens.opens opens'.opens
          obtain rfl := closes.unique closes'
          rw [ih rest']

theorem scan_behind (front text : Text) :
    ∃ segments, Scans (front ++ text) front.length segments ∧ (∀ segment ∈ segments, front.length ≤ segment.start) ∧
      withoutDelimited text = outside segments front.length text := by
  fun_induction withoutDelimited text generalizing front with
  | case1 text none =>
      have finds := first_opening_finds text
      rw [none] at finds
      exact ⟨[], .plain _ (none_opens_append front text finds), nofun, (outside_all [] _ text fun _ _ _ => rfl).symm⟩
  | case2 text before delimiter body opening inner rest closing ih =>
      have finds := first_opening_finds text
      rw [opening] at finds
      have first := first_opens_append front text finds
      have closes := first_closer_append (front ++ (before ++ delimiter.opener)) body delimiter inner rest closing
      have opened : front ++ (before ++ delimiter.opener) ++ body = front ++ text := by
        rw [first_opening_eq text before body delimiter opening]
        simp only [List.append_assoc]
      rw [opened, List.length_append, List.length_append, ← Nat.add_assoc] at closes
      have cut : text = before ++ ((delimiter.opener ++ (inner ++ delimiter.closer)) ++ rest) := by
        rw [first_opening_eq text before body delimiter opening, Text.split_at_first_eq _ body inner rest closing]
        simp only [List.append_assoc]
      have stop : front.length + before.length + delimiter.opener.length + inner.length + delimiter.closer.length =
          front.length + before.length + (delimiter.opener ++ (inner ++ delimiter.closer)).length := by
        simp only [List.length_append]
        omega
      -- From behind the comment on the scan goes on as it does for the rest alone.
      obtain ⟨segments, scan, later, kept⟩ := ih (front ++ before ++ (delimiter.opener ++ (inner ++ delimiter.closer)))
      rw [List.append_assoc, List.append_assoc, ← cut, List.length_append, List.length_append] at scan
      rw [List.length_append, List.length_append] at later kept
      refine ⟨_, .comment _ _ _ delimiter segments first closes (stop ▸ scan), ?_, ?_⟩
      · intro segment member
        rcases List.mem_cons.mp member with rfl | behind
        · exact Nat.le_add_right _ _
        · have far := later segment behind
          omega
      · rw [stop, cut, outside_comment before _ rest front.length segments later, kept]
  | case3 text before delimiter body opening unclosed =>
      have finds := first_opening_finds text
      rw [opening] at finds
      have first := first_opens_append front text finds
      have none := no_closer_append (front ++ (before ++ delimiter.opener)) body delimiter unclosed
      have opened : front ++ (before ++ delimiter.opener) ++ body = front ++ text := by
        rw [first_opening_eq text before body delimiter opening]
        simp only [List.append_assoc]
      rw [opened, List.length_append, List.length_append, ← Nat.add_assoc] at none
      exact ⟨[], .unclosed _ _ delimiter first none, nofun, (outside_all [] _ text fun _ _ _ => rfl).symm⟩

theorem without_delimited_in_one_pass (text : Text) :
    ∃ segments, Scans text 0 segments ∧ (∀ others, Scans text 0 others → others = segments) ∧
      withoutDelimited text = outside segments 0 text := by
  obtain ⟨segments, scan, -, kept⟩ := scan_behind [] text
  exact ⟨segments, scan, fun others again => scan.unique again, kept⟩

-- The slash of an opener closes nothing, a fourth quote belongs to the comment, and an opener right behind stays open.
example : withoutDelimited "a /*/ b */\"\"\"\" c\"\"\"/* d".toList = "a /* d".toList := by decide +kernel

end BlockSearch.Compaction
