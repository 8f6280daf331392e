import BlockSearch.Json.Record
import BlockSearch.Proofs.Json.Reader

set_option autoImplicit false

namespace BlockSearch.Json

section Values

theorem natural_proper (n : Nat) : IsProper (natural n) :=
  .number _ ⟨by rintro _ ⟨⟩, by rintro _ ⟨⟩⟩

theorem natural_read (n : Nat) (fits : n < Decimal.wordLimit) : (natural n).toNatural = some n := by
  rw [natural, toNatural, if_pos fits]

theorem optional_natural_read (n : Nat) (fits : n < Decimal.wordLimit) :
    (natural n).toOptionalNatural = some (some n) := by
  have given := natural_read n fits
  rw [natural] at given ⊢
  rw [toOptionalNatural, given, Option.map_some]
  rintro ⟨⟩

theorem texts_proper (texts : List Text) : IsProper (.array (texts.map text)) := by
  refine .array _ fun item member => ?_
  obtain ⟨inner, _, rfl⟩ := List.mem_map.mp member
  exact .string inner

theorem texts_read (texts : List Text) : (Json.array (texts.map text)).toTexts = some texts := by
  rw [toTexts]
  induction texts with
  | nil => rfl
  | cons first texts ih => rw [List.map_cons, List.mapM_cons, ih]; rfl

end Values

section Fields

variable {α : Type} (fields : List (Field α))

theorem put_members_field (seen : List Nat) (record changed : α) (name : Text) (value : Json)
    (members : List (Option Text × Json)) (index : Nat) (field : Field α) (known : fieldOf fields name = some index)
    (fresh : index ∉ seen) (placed : fields[index]? = some field) (put : field.put record value = some changed) :
    putMembers fields seen record ((some name, value) :: members) =
      putMembers fields (index :: seen) changed members := by
  have unseen : seen.contains index = false := by simpa using fresh
  rw [putMembers, known]
  simp only [unseen, Bool.false_eq_true, if_false, placed, Option.bind_some, put]

theorem field_of_append (before after : List (Field α)) (field : Field α) (name : Text)
    (other : ∀ earlier ∈ before, name ∉ earlier.names) (named : name ∈ field.names) :
    fieldOf (before ++ field :: after) name = some before.length := by
  have none : before.findIdx? (fun earlier => earlier.names.contains name) = none := by
    rw [List.findIdx?_eq_none_iff]
    intro earlier member
    simpa using other earlier member
  have here : field.names.contains name = true := by simpa using named
  rw [fieldOf, List.findIdx?_append, none, List.findIdx?_cons, here]
  simp

theorem complete_optional (seen : List Nat) (optional : ∀ field ∈ fields, field.required = false) :
    complete fields seen = true := by
  rw [complete, List.all_eq_true]
  rintro ⟨field, index⟩ member
  have free := optional field (List.fst_mem_of_mem_zipIdx member)
  simp [free]

end Fields

end BlockSearch.Json
