import BlockSearch.Proofs.Text.Pieces

set_option autoImplicit false

namespace BlockSearch.Text

theorem after_lead_tail (lead text tail : Text) (free : ∀ c ∈ tail.head?, c ∉ lead) :
    afterLead lead (text ++ tail) = (afterLead lead text).map (· ++ tail) := by
  induction lead generalizing text with
  | nil => rfl
  | cons c lead ih =>
      cases text with
      | nil =>
          cases tail with
          | nil => rfl
          | cons d tail =>
              have different : c ≠ d := fun same => free d rfl (same ▸ List.mem_cons_self)
              simp [afterLead, different]
      | cons d text =>
          by_cases same : c = d
          · have inner := ih text fun e first member => free e first (List.mem_cons_of_mem _ member)
            simpa [afterLead, same] using inner
          · simp [afterLead, same]

section Divided

variable (mark behind : Text) (c : Char) (free : c ∉ mark)
include free

theorem after_lead_divided (front : Text) :
    afterLead mark (front ++ c :: behind) = (afterLead mark front).map (· ++ c :: behind) :=
  after_lead_tail mark front (c :: behind) fun _ first => Option.some.inj first ▸ free

theorem split_at_first_divided (nonempty : mark ≠ []) (front : Text) :
    splitAtFirst mark (front ++ c :: behind) =
      ((splitAtFirst mark front).map fun (before, rest) => (before, rest ++ c :: behind)).or
        ((splitAtFirst mark behind).map fun (before, rest) => (front ++ c :: before, rest)) := by
  induction front with
  | nil =>
      have none : afterLead mark (c :: behind) = none := by
        rw [← List.nil_append (c :: behind), after_lead_divided mark behind c free]
        cases mark with
        | nil => exact absurd rfl nonempty
        | cons d mark => rfl
      simp [splitAtFirst, none]
  | cons d front ih =>
      have here := after_lead_divided mark behind c free (d :: front)
      rw [List.cons_append] at here
      cases lead : afterLead mark (d :: front) with
      | some rest => simp [splitAtFirst, here, lead]
      | none =>
          simp only [List.cons_append, splitAtFirst, here, lead, Option.map_none, ih]
          cases splitAtFirst mark front <;> cases splitAtFirst mark behind <;> rfl

theorem mentions_divided (nonempty : mark ≠ []) (front : Text) :
    mentions mark (front ++ c :: behind) = (mentions mark front || mentions mark behind) := by
  rw [mentions, split_at_first_divided mark behind c free nonempty, mentions, mentions]
  cases splitAtFirst mark front <;> cases splitAtFirst mark behind <;> rfl

end Divided

section Apart

variable (mark : Text) (nonempty : mark ≠ [])
include nonempty

theorem split_at_first_apart (text : Text) (free : ∀ c ∈ text, c ∉ mark) : splitAtFirst mark text = none := by
  induction text with
  | nil => rfl
  | cons c text ih =>
      have behind := ih fun d later => free d (List.mem_cons_of_mem _ later)
      have divided := split_at_first_divided mark text c (free c List.mem_cons_self) nonempty []
      rw [List.nil_append, behind] at divided
      exact divided

theorem split_at_first_tail (text tail : Text) (free : ∀ c ∈ tail, c ∉ mark) :
    splitAtFirst mark (text ++ tail) = (splitAtFirst mark text).map fun (before, rest) => (before, rest ++ tail) := by
  cases tail with
  | nil => simp
  | cons c tail =>
      have behind := split_at_first_apart mark nonempty tail fun d later => free d (List.mem_cons_of_mem _ later)
      rw [split_at_first_divided mark tail c (free c List.mem_cons_self) nonempty, behind, Option.map_none, Option.or_none]

theorem mentions_tail (text tail : Text) (free : ∀ c ∈ tail, c ∉ mark) :
    mentions mark (text ++ tail) = mentions mark text := by
  rw [mentions, mentions, split_at_first_tail mark nonempty text tail free, Option.isSome_map]

theorem mentions_lead (lead text : Text) (free : ∀ c ∈ lead, c ∉ mark) :
    mentions mark (lead ++ text) = mentions mark text := by
  induction lead with
  | nil => rfl
  | cons c lead ih =>
      have divided := mentions_divided mark (lead ++ text) c (free c List.mem_cons_self) nonempty []
      rw [List.nil_append, ih fun d later => free d (List.mem_cons_of_mem _ later)] at divided
      exact divided

theorem mentions_joined (c : Char) (free : c ∉ mark) (parts : List Text) :
    mentions mark (joined [c] parts) = parts.any (mentions mark) := by
  induction parts with
  | nil => rfl
  | cons part parts ih =>
      cases parts with
      | nil => simp [joined]
      | cons next parts =>
          rw [joined_cons c part _ (List.cons_ne_nil _ _), mentions_divided mark _ c free nonempty, ih]
          rfl

end Apart

theorem before_tail_lead (tail lead text stem : Text) (found : beforeTail tail text = some stem) :
    beforeTail tail (lead ++ text) = some (lead ++ stem) := by
  rw [before_tail_eq tail text stem found, ← List.append_assoc, before_tail_append]

theorem split_at_last_lead (mark lead text stem rest : Text) (found : splitAtLast mark text = some (stem, rest)) :
    splitAtLast mark (lead ++ text) = some (lead ++ stem, rest) := by
  induction lead with
  | nil => exact found
  | cons c lead ih => simp only [List.cons_append, splitAtLast, ih]

theorem split_at_last_apart (c : Char) (mark lead text : Text) (free : c ∉ lead)
    (absent : splitAtLast (c :: mark) text = none) : splitAtLast (c :: mark) (lead ++ text) = none := by
  induction lead with
  | nil => exact absent
  | cons d lead ih =>
      obtain ⟨different, later⟩ := not_or.mp fun member => free (List.mem_cons.mpr member)
      simp only [List.cons_append, splitAtLast, ih later, afterLead, if_neg different, Option.map_none]

end BlockSearch.Text
