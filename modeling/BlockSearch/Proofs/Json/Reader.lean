import BlockSearch.Json.Reader
import BlockSearch.Proofs.Json.Quoted
import BlockSearch.Proofs.Text.Decimal
import Mathlib.Data.List.TakeDrop

set_option autoImplicit false

namespace BlockSearch.Json

section Blanks

def IsGap (text : Text) : Prop := ∀ c ∈ text, isBlank c = true

theorem no_gap : IsGap [] := fun _ member => absurd member List.not_mem_nil

theorem skip_gap (gap text : Text) (blank : IsGap gap) : skipBlanks (gap ++ text) = skipBlanks text :=
  List.dropWhile_append_of_pos blank

theorem skip_solid (c : Char) (rest : Text) (solid : isBlank c = false) : skipBlanks (c :: rest) = c :: rest := by
  simp [skipBlanks, solid]

theorem line_start_gap (spacing : Spacing) : IsGap spacing.lineStart := by
  cases spacing with
  | dense => exact no_gap
  | lines depth =>
      intro c member
      rcases List.mem_cons.mp member with rfl | inside
      · rfl
      · rw [List.eq_of_mem_replicate inside]
        rfl

theorem newline_gap : IsGap ['\n'] := line_start_gap (.lines 0)

theorem after_colon_gap (spacing : Spacing) : IsGap spacing.afterColon := by
  cases spacing with
  | dense => exact no_gap
  | lines depth =>
      intro c member
      rw [List.mem_singleton.mp member]
      rfl

theorem after_colon_deeper (spacing : Spacing) : spacing.deeper.afterColon = spacing.afterColon := by
  cases spacing <;> rfl

end Blanks

section Numbers

def EndsNumber (rest : Text) : Prop := ∀ c ∈ rest.head?, c.isDigit = false ∧ c ≠ '.' ∧ c ≠ 'e' ∧ c ≠ 'E'

def AreDigits (digits : Text) : Prop := digits ≠ [] ∧ ∀ c ∈ digits, c.isDigit = true

-- With digits behind the point and behind the sign of the exponent, if there are such.
structure Number.IsProper (number : Number) : Prop where
  fraction : ∀ digits ∈ number.fraction, AreDigits digits
  exponent : ∀ text ∈ number.exponent, ∃ sign digits, text = sign ++ digits ∧ AreDigits digits ∧
    (sign = [] ∨ sign = ['+'] ∨ sign = ['-'])

theorem digit_ne (c d : Char) (digit : c.isDigit = true) (other : d.isDigit = false) : c ≠ d := by
  rintro rfl
  rw [digit] at other
  cases other

theorem read_digits_written (digits rest : Text) (proper : AreDigits digits)
    (ends : ∀ c ∈ rest.head?, c.isDigit = false) : readDigits (digits ++ rest) = some (digits, rest) := by
  have stops : rest.takeWhile Char.isDigit = [] ∧ rest.dropWhile Char.isDigit = rest := by
    cases rest with
    | nil => exact ⟨rfl, rfl⟩
    | cons c rest => simp [ends c rfl]
  obtain ⟨c, others, rfl⟩ := List.exists_cons_of_ne_nil proper.1
  rw [readDigits, List.span_eq_takeWhile_dropWhile, List.takeWhile_append_of_pos proper.2,
    List.dropWhile_append_of_pos proper.2, stops.1, stops.2, List.append_nil]

theorem read_whole_written (n : Nat) (rest : Text) (ends : ∀ c ∈ rest.head?, c.isDigit = false) :
    readWhole (Text.ofNat n ++ rest) = some (n, rest) := by
  rw [readWhole, read_digits_written _ rest ⟨Text.of_nat_ne_nil n, Text.of_nat_is_digit n⟩ ends]
  split
  · rename_i c others behind digits
    simp only [Option.some.injEq, Prod.mk.injEq] at digits
    exact absurd digits.1 (Text.of_nat_no_lead n c others)
  · rename_i digits behind _ whole
    simp only [Option.some.injEq, Prod.mk.injEq] at whole
    rw [← whole.1, ← whole.2, Decimal.value_of_nat, Option.map_some]
  · rename_i none
    cases none

def Number.fractionText (number : Number) : Text :=
  match number.fraction with
  | some digits => '.' :: digits
  | none => []

def Number.exponentText (number : Number) : Text :=
  match number.exponent with
  | some digits => 'e' :: digits
  | none => []

theorem read_fraction_written (number : Number) (proper : number.IsProper) (rest : Text)
    (ends : ∀ c ∈ rest.head?, c.isDigit = false ∧ c ≠ '.') :
    readFraction (number.fractionText ++ rest) = some (number.fraction, rest) := by
  unfold Number.fractionText
  cases given : number.fraction with
  | some digits =>
      rw [List.cons_append, readFraction,
        read_digits_written digits rest (proper.fraction digits given) fun c head => (ends c head).1]
      rfl
  | none =>
      cases rest with
      | nil => rfl
      | cons c rest =>
          rw [List.nil_append, readFraction]
          intro _ point
          exact (ends c rfl).2 (List.cons.inj point).1

theorem read_sign_written (sign digits rest : Text) (proper : AreDigits digits)
    (signed : sign = [] ∨ sign = ['+'] ∨ sign = ['-']) :
    readSign (sign ++ digits ++ rest) = (sign, digits ++ rest) := by
  rcases signed with rfl | rfl | rfl
  · obtain ⟨c, others, rfl⟩ := List.exists_cons_of_ne_nil proper.1
    have digit := proper.2 c List.mem_cons_self
    rw [List.nil_append, List.cons_append, readSign]
    · intro _ plus
      exact digit_ne c '+' digit rfl (List.cons.inj plus).1
    · intro _ minus
      exact digit_ne c '-' digit rfl (List.cons.inj minus).1
  · rfl
  · rfl

theorem read_exponent_written (number : Number) (proper : number.IsProper) (rest : Text) (ends : EndsNumber rest) :
    readExponent (number.exponentText ++ rest) = some (number.exponent, rest) := by
  unfold Number.exponentText
  cases given : number.exponent with
  | some text =>
      obtain ⟨sign, digits, rfl, inner, signed⟩ := proper.exponent text given
      rw [List.cons_append, readExponent, if_pos (.inl rfl), read_sign_written sign digits rest inner signed,
        read_digits_written digits rest inner fun c head => (ends c head).1]
      rfl
  | none =>
      cases rest with
      | nil => rfl
      | cons c rest =>
          have other := (ends c rfl).2.2
          rw [List.nil_append, readExponent, if_neg (not_or.mpr other)]

theorem read_unsigned_written (number : Number) (proper : number.IsProper) (rest : Text) (ends : EndsNumber rest) :
    readUnsigned number.negative
        (Text.ofNat number.whole ++ (number.fractionText ++ (number.exponentText ++ rest))) =
      some (.number number, rest) := by
  have exponentEnds : ∀ c ∈ (number.exponentText ++ rest).head?, c.isDigit = false ∧ c ≠ '.' := by
    unfold Number.exponentText
    cases number.exponent with
    | some digits => rintro c ⟨⟩; decide
    | none => exact fun c head => ⟨(ends c head).1, (ends c head).2.1⟩
  have fractionEnds : ∀ c ∈ (number.fractionText ++ (number.exponentText ++ rest)).head?, c.isDigit = false := by
    unfold Number.fractionText
    cases number.fraction with
    | some digits => rintro c ⟨⟩; decide
    | none => exact fun c head => (exponentEnds c head).1
  rw [readUnsigned, read_whole_written _ _ fractionEnds]
  simp only [Option.bind_eq_bind, Option.bind_some, read_fraction_written number proper _ exponentEnds,
    read_exponent_written number proper rest ends]
  rfl

theorem digit_solid (c : Char) (digit : c.isDigit = true) : isBlank c = false := by
  simp [isBlank, digit_ne c _ digit]

theorem number_head (number : Number) :
    ∃ c rest, number.write = c :: rest ∧ isBlank c = false ∧ ∀ mark, mark.isDigit = false → mark ≠ '-' → c ≠ mark := by
  obtain ⟨c, rest, digits, digit⟩ := Text.of_nat_front number.whole
  rw [Number.write, digits]
  cases number.negative with
  | true => exact ⟨'-', _, rfl, rfl, fun mark _ other => other.symm⟩
  | false => exact ⟨c, _, rfl, digit_solid c digit, fun mark other _ => digit_ne c mark digit other⟩

theorem read_number_written (number : Number) (proper : number.IsProper) (rest : Text) (ends : EndsNumber rest) :
    readNumber (number.write ++ rest) = some (.number number, rest) := by
  have unsigned := read_unsigned_written number proper rest ends
  have cut : number.write ++ rest = (if number.negative then ['-'] else []) ++
      (Text.ofNat number.whole ++ (number.fractionText ++ (number.exponentText ++ rest))) := by
    rw [Number.write, List.append_assoc, List.append_assoc, List.append_assoc]
    rfl
  rw [cut]
  cases negative : number.negative with
  | true =>
      rw [negative] at unsigned
      rw [if_pos rfl]
      exact unsigned
  | false =>
      obtain ⟨c, others, digits, digit⟩ := Text.of_nat_front number.whole
      rw [digits, negative] at unsigned
      rw [if_neg Bool.false_ne_true, List.nil_append, digits, List.cons_append, readNumber]
      · exact unsigned
      · intro _ minus
        exact digit_ne c '-' digit rfl (List.cons.inj minus).1

end Numbers

section Values

theorem read_string_written (text rest : Text) :
    readString (text.flatMap Quoted.writeChar ++ '\x22' :: rest) = some (some text, rest) := by
  simp only [readString, Quoted.read_written, Option.map_some, Quoted.text_of_chars]

theorem write_string_append (text rest : Text) :
    writeString (some text) ++ rest = '\x22' :: (text.flatMap Quoted.writeChar ++ '\x22' :: rest) := by
  simp [writeString, Quoted.write]

-- A value begins with a character that is no blank and closes nothing.
theorem write_head (spacing : Spacing) (json : Json) :
    ∃ c rest, write spacing json = c :: rest ∧ isBlank c = false ∧ c ≠ ']' := by
  cases json with
  | null => exact ⟨'n', _, by rw [write]; rfl, rfl, by decide⟩
  | bool value =>
      cases value with
      | true => exact ⟨'t', _, by rw [write]; rfl, rfl, by decide⟩
      | false => exact ⟨'f', _, by rw [write]; rfl, rfl, by decide⟩
  | number value =>
      obtain ⟨c, rest, written, solid, other⟩ := number_head value
      exact ⟨c, rest, by rw [write, written], solid, other ']' rfl (by decide)⟩
  | string text => exact ⟨'\x22', _, by rw [write]; rfl, rfl, by decide⟩
  | array items =>
      cases items with
      | nil => exact ⟨'[', _, by rw [write], rfl, by decide⟩
      | cons item items => exact ⟨'[', _, by rw [write]; rfl, rfl, by decide⟩
  | object members =>
      cases members with
      | nil => exact ⟨'\x7b', _, by rw [write], rfl, by decide⟩
      | cons member members => exact ⟨'\x7b', _, by rw [write]; rfl, rfl, by decide⟩

theorem read_value_gap (fuel : Nat) (gap text : Text) (blank : IsGap gap) :
    readValue fuel (gap ++ text) = readValue fuel text := by
  cases fuel with
  | zero => rfl
  | succ fuel => rw [readValue, readValue, skip_gap gap text blank]

theorem read_value_scalar (fuel : Nat) (c : Char) (rest : Text) (solid : isBlank c = false)
    (other : c ≠ '[' ∧ c ≠ '\x7b' ∧ c ≠ '\x22') : readValue (fuel + 1) (c :: rest) = readScalar (c :: rest) := by
  rw [readValue, skip_solid c rest solid]
  split
  · rename_i _ bracket
    exact absurd (List.cons.inj bracket).1 other.1
  · rename_i _ brace
    exact absurd (List.cons.inj brace).1 other.2.1
  · rename_i _ quote
    exact absurd (List.cons.inj quote).1 other.2.2
  · rfl

theorem read_scalar_number (c : Char) (rest : Text) (other : c ≠ 'n' ∧ c ≠ 't' ∧ c ≠ 'f') :
    readScalar (c :: rest) = readNumber (c :: rest) := by
  simp [readScalar, Text.afterLead, other.1.symm, other.2.1.symm, other.2.2.symm]

theorem read_value_string (fuel : Nat) (text rest : Text) :
    readValue (fuel + 1) (writeString (some text) ++ rest) = some (.string (some text), rest) := by
  rw [write_string_append, readValue, skip_solid _ _ rfl]
  simp only [read_string_written, Option.map_some]

theorem read_value_array (fuel : Nat) (gap text : Text) (blank : IsGap gap)
    (inside : ∃ c rest, text = c :: rest ∧ isBlank c = false ∧ c ≠ ']') :
    readValue (fuel + 1) ('[' :: (gap ++ text)) =
      (readItems fuel text).map fun (items, left) => (.array items, left) := by
  obtain ⟨c, rest, rfl, solid, opened⟩ := inside
  rw [readValue, skip_solid _ _ rfl]
  simp only [skip_gap gap _ blank, skip_solid c rest solid]
  split
  · rename_i _ closed
    exact absurd (List.cons.inj closed).1 opened
  · rfl

theorem read_value_object (fuel : Nat) (gap text : Text) (blank : IsGap gap) (inside : ∃ rest, text = '\x22' :: rest) :
    readValue (fuel + 1) ('\x7b' :: (gap ++ text)) =
      (readMembers fuel text).map fun (members, left) => (.object members, left) := by
  obtain ⟨rest, rfl⟩ := inside
  rw [readValue, skip_solid _ _ rfl]
  simp only [skip_gap gap _ blank, skip_solid '\x22' rest rfl]
  rfl

end Values

section Written

inductive IsProper : Json → Prop where
  | null : IsProper .null
  | bool (value : Bool) : IsProper (.bool value)
  | number (value : Number) (proper : value.IsProper) : IsProper (.number value)
  | string (text : Text) : IsProper (.string (some text))
  | array (items : List Json) (inside : ∀ item ∈ items, IsProper item) : IsProper (.array items)
  | object (members : List (Option Text × Json)) (keys : ∀ member ∈ members, member.1.isSome = true)
      (inside : ∀ member ∈ members, IsProper member.2) : IsProper (.object members)

-- Read as it is written, whatever is behind it and however many steps are left over.
def ReadsBack (json : Json) : Prop :=
  ∀ (spacing : Spacing) (fuel : Nat) (rest : Text), EndsNumber rest → 2 * (write spacing json).length ≤ fuel →
    readValue fuel (write spacing json ++ rest) = some (json, rest)

theorem ends_number (c : Char) (rest : Text) (other : c.isDigit = false ∧ c ≠ '.' ∧ c ≠ 'e' ∧ c ≠ 'E') :
    EndsNumber (c :: rest) := by
  rintro _ ⟨⟩
  exact other

theorem gap_ends_number (gap rest : Text) (blank : IsGap gap) (ends : EndsNumber rest) : EndsNumber (gap ++ rest) := by
  cases gap with
  | nil => exact ends
  | cons c gap =>
      have blankFront := blank c List.mem_cons_self
      refine ends_number c _ ⟨?_, ?_, ?_, ?_⟩
      · by_contra digit
        rw [digit_solid c (eq_true_of_ne_false digit)] at blankFront
        cases blankFront
      all_goals
        rintro rfl
        cases blankFront

theorem items_end_number (spacing : Spacing) (items : List Json) (rest : Text) (ends : EndsNumber rest) :
    EndsNumber (writeItems spacing items ++ rest) := by
  cases items with
  | nil => rw [writeItems]; exact ends
  | cons item items => rw [writeItems]; exact ends_number ',' _ (by decide)

theorem members_end_number (spacing : Spacing) (members : List (Option Text × Json)) (rest : Text)
    (ends : EndsNumber rest) : EndsNumber (writeMembers spacing members ++ rest) := by
  cases members with
  | nil => rw [writeMembers]; exact ends
  | cons member members => rw [writeMembers]; exact ends_number ',' _ (by decide)

theorem read_items_gap (fuel : Nat) (gap text : Text) (blank : IsGap gap) :
    readItems fuel (gap ++ text) = readItems fuel text := by
  cases fuel with
  | zero => rfl
  | succ fuel => rw [readItems, readItems, read_value_gap fuel gap text blank]

theorem read_members_gap (fuel : Nat) (gap text : Text) (blank : IsGap gap) :
    readMembers fuel (gap ++ text) = readMembers fuel text := by
  cases fuel with
  | zero => rfl
  | succ fuel => rw [readMembers, readMembers, skip_gap gap text blank]

theorem read_items_written (spacing : Spacing) (item : Json) (items : List Json) (gap rest : Text) (fuel : Nat)
    (blank : IsGap gap) (each : ∀ part ∈ item :: items, ReadsBack part)
    (enough : 2 * (write spacing item ++ writeItems spacing items).length + 1 ≤ fuel) :
    readItems fuel (write spacing item ++ (writeItems spacing items ++ (gap ++ ']' :: rest))) =
      some (item :: items, rest) := by
  induction items generalizing item fuel with
  | nil =>
      obtain ⟨fuel, rfl⟩ : ∃ steps, fuel = steps + 1 := ⟨fuel - 1, by omega⟩
      have first := each item List.mem_cons_self spacing fuel (gap ++ ']' :: rest)
        (gap_ends_number gap _ blank (ends_number ']' rest (by decide)))
        (by simp only [List.length_append] at enough; omega)
      rw [writeItems, List.nil_append, readItems, first]
      simp only [skip_gap gap _ blank, skip_solid ']' rest rfl]
  | cons next items ih =>
      obtain ⟨fuel, rfl⟩ : ∃ steps, fuel = steps + 1 := ⟨fuel - 1, by omega⟩
      have closed : EndsNumber (gap ++ ']' :: rest) :=
        gap_ends_number gap _ blank (ends_number ']' rest (by decide))
      have size := enough
      simp only [writeItems, List.length_append, List.length_cons] at size
      have first := each item List.mem_cons_self spacing fuel _
        (items_end_number spacing (next :: items) _ closed) (by omega)
      have others := ih next fuel (fun part member => each part (List.mem_cons_of_mem _ member))
        (by rw [List.length_append]; omega)
      rw [readItems, first, writeItems]
      simp only [List.cons_append, skip_solid ',' _ rfl, List.append_assoc,
        read_items_gap fuel _ _ (line_start_gap spacing), others, Option.map_some]

theorem read_members_written (spacing : Spacing) (key : Text) (value : Json) (members : List (Option Text × Json))
    (gap rest : Text) (fuel : Nat) (blank : IsGap gap) (each : ∀ part ∈ (some key, value) :: members, ReadsBack part.2)
    (keys : ∀ part ∈ members, part.1.isSome = true)
    (enough : 2 * (write spacing value ++ writeMembers spacing members).length + 1 ≤ fuel) :
    readMembers fuel (writeString (some key) ++ (':' :: spacing.afterColon ++ (write spacing value ++
        (writeMembers spacing members ++ (gap ++ '\x7d' :: rest))))) =
      some ((some key, value) :: members, rest) := by
  induction members generalizing key value fuel with
  | nil =>
      obtain ⟨fuel, rfl⟩ : ∃ steps, fuel = steps + 1 := ⟨fuel - 1, by omega⟩
      have first := each _ List.mem_cons_self spacing fuel (gap ++ '\x7d' :: rest)
        (gap_ends_number gap _ blank (ends_number '\x7d' rest (by decide)))
        (by simp only [List.length_append] at enough; dsimp only; omega)
      rw [writeMembers, List.nil_append, write_string_append, readMembers, skip_solid _ _ rfl]
      simp only [read_string_written, List.cons_append, skip_solid ':' _ rfl,
        read_value_gap fuel _ _ (after_colon_gap spacing), first, skip_gap gap _ blank, skip_solid '\x7d' rest rfl]
  | cons next members ih =>
      obtain ⟨nextKey, nextValue⟩ := next
      obtain ⟨nextText, rfl⟩ := Option.isSome_iff_exists.mp (keys _ List.mem_cons_self)
      obtain ⟨fuel, rfl⟩ : ∃ steps, fuel = steps + 1 := ⟨fuel - 1, by omega⟩
      have closed : EndsNumber (gap ++ '\x7d' :: rest) :=
        gap_ends_number gap _ blank (ends_number '\x7d' rest (by decide))
      have size := enough
      simp only [writeMembers, List.length_append, List.length_cons] at size
      have first := each _ List.mem_cons_self spacing fuel _
        (members_end_number spacing ((some nextText, nextValue) :: members) _ closed) (by dsimp only; omega)
      have others := ih nextText nextValue fuel (fun part member => each part (List.mem_cons_of_mem _ member))
        (fun part member => keys part (List.mem_cons_of_mem _ member)) (by rw [List.length_append]; omega)
      rw [write_string_append, readMembers, skip_solid _ _ rfl]
      simp only [read_string_written, List.cons_append, skip_solid ':' _ rfl,
        read_value_gap fuel _ _ (after_colon_gap spacing), first]
      simp only [writeMembers, List.cons_append, skip_solid ',' _ rfl, List.append_assoc,
        read_members_gap fuel _ _ (line_start_gap spacing)] at others ⊢
      rw [others, Option.map_some]

theorem reads_back_step (json : Json)
    (step : ∀ (spacing : Spacing) (steps : Nat) (rest : Text), EndsNumber rest →
      2 * (write spacing json).length ≤ steps + 1 →
      readValue (steps + 1) (write spacing json ++ rest) = some (json, rest)) : ReadsBack json := by
  intro spacing fuel rest ends enough
  cases fuel with
  | zero =>
      obtain ⟨c, others, written, _⟩ := write_head spacing json
      rw [written, List.length_cons] at enough
      omega
  | succ steps => exact step spacing steps rest ends enough

theorem array_reads_back (item : Json) (items : List Json) (each : ∀ part ∈ item :: items, ReadsBack part) :
    ReadsBack (.array (item :: items)) := by
  refine reads_back_step _ fun spacing steps rest _ enough => ?_
  have inner := read_items_written spacing.deeper item items spacing.lineStart rest steps (line_start_gap spacing) each
    (by simp only [write, List.length_append, List.length_cons] at enough ⊢; omega)
  have opening := read_value_array steps spacing.deeper.lineStart
    (write spacing.deeper item ++ (writeItems spacing.deeper items ++ (spacing.lineStart ++ ']' :: rest)))
    (line_start_gap spacing.deeper) (by
      obtain ⟨c, others, written, head⟩ := write_head spacing.deeper item
      exact ⟨c, _, by rw [written, List.cons_append], head⟩)
  rw [inner, Option.map_some] at opening
  rw [write, ← opening]
  simp only [List.cons_append, List.append_assoc, List.nil_append]

theorem object_reads_back (key : Text) (value : Json) (members : List (Option Text × Json))
    (keys : ∀ part ∈ members, part.1.isSome = true) (each : ∀ part ∈ (some key, value) :: members, ReadsBack part.2) :
    ReadsBack (.object ((some key, value) :: members)) := by
  refine reads_back_step _ fun spacing steps rest _ enough => ?_
  have inner := read_members_written spacing.deeper key value members spacing.lineStart rest steps
    (line_start_gap spacing) each keys
    (by simp only [write, List.length_append, List.length_cons] at enough ⊢; omega)
  have opening := read_value_object steps spacing.deeper.lineStart
    (writeString (some key) ++ (':' :: spacing.deeper.afterColon ++ (write spacing.deeper value ++
      (writeMembers spacing.deeper members ++ (spacing.lineStart ++ '\x7d' :: rest)))))
    (line_start_gap spacing.deeper) ⟨_, write_string_append key _⟩
  rw [inner, Option.map_some] at opening
  rw [write, ← opening]
  simp only [after_colon_deeper, List.cons_append, List.append_assoc, List.nil_append]

theorem number_reads_back (number : Number) (proper : number.IsProper) : ReadsBack (.number number) := by
  refine reads_back_step _ fun spacing steps rest ends _ => ?_
  obtain ⟨c, others, written, solid, other⟩ := number_head number
  have read := read_number_written number proper rest ends
  rw [write]
  rw [written, List.cons_append] at read ⊢
  rw [read_value_scalar steps c _ solid
      ⟨other '[' rfl (by decide), other '\x7b' rfl (by decide), other '\x22' rfl (by decide)⟩,
    read_scalar_number c _ ⟨other 'n' rfl (by decide), other 't' rfl (by decide), other 'f' rfl (by decide)⟩, read]

theorem IsProper.reads_back (json : Json) (proper : IsProper json) : ReadsBack json := by
  induction proper with
  | null =>
      refine reads_back_step _ fun spacing steps rest _ _ => ?_
      rw [write]
      exact read_value_scalar steps 'n' _ rfl (by decide)
  | bool value =>
      refine reads_back_step _ fun spacing steps rest _ _ => ?_
      cases value with
      | true => rw [write]; exact read_value_scalar steps 't' _ rfl (by decide)
      | false => rw [write]; exact read_value_scalar steps 'f' _ rfl (by decide)
  | number value proper => exact number_reads_back value proper
  | string text =>
      refine reads_back_step _ fun spacing steps rest _ _ => ?_
      rw [write, read_value_string]
  | array items inside ih =>
      cases items with
      | nil =>
          refine reads_back_step _ fun spacing steps rest _ _ => ?_
          rw [write]
          rfl
      | cons item items => exact array_reads_back item items ih
  | object members keys inside ih =>
      cases members with
      | nil =>
          refine reads_back_step _ fun spacing steps rest _ _ => ?_
          rw [write]
          rfl
      | cons member members =>
          obtain ⟨key, value⟩ := member
          obtain ⟨text, rfl⟩ := Option.isSome_iff_exists.mp (keys _ List.mem_cons_self)
          exact object_reads_back text value members (fun part member => keys part (List.mem_cons_of_mem _ member)) ih

theorem read_written (spacing : Spacing) (json : Json) (gap : Text) (proper : IsProper json) (blank : IsGap gap) :
    read (write spacing json ++ gap) = some json := by
  have ends : EndsNumber gap := by
    have := gap_ends_number gap [] blank (fun _ head => by cases head)
    rwa [List.append_nil] at this
  have value := proper.reads_back json spacing (2 * (write spacing json ++ gap).length + 2) gap ends
    (by rw [List.length_append]; omega)
  have left : skipBlanks gap = [] := by
    have := skip_gap gap [] blank
    rwa [List.append_nil] at this
  rw [read, value]
  simp only [left, List.isEmpty_nil, if_true]

end Written

end BlockSearch.Json
