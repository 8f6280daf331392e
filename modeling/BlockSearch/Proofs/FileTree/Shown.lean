import BlockSearch.Proofs.FileTree.Names

set_option autoImplicit false

namespace BlockSearch.Path

theorem after_components_iff (components : List Component) (pieces : List Text) :
    (afterComponents components pieces).isSome = true ↔ components <+: bodyComponents pieces := by
  induction pieces generalizing components with
  | nil => cases components <;> simp [afterComponents, bodyComponents]
  | cons piece pieces ih =>
      cases components with
      | nil => simp [afterComponents]
      | cons component components =>
          rw [afterComponents]
          by_cases silent : isSilent piece = true
          · rw [if_pos silent, ih, body_components_quiet piece pieces silent]
          · rw [if_neg silent, body_components_cons piece pieces silent, List.cons_prefix_cons]
            by_cases same : Component.ofPiece piece = component
            · rw [if_pos same, ih]
              simp [same]
            · rw [if_neg same]
              simp [Ne.symm same]

theorem after_components_split (components : List Component) (pieces left : List Text)
    (after : afterComponents components pieces = some left) :
    ∃ front, pieces = front ++ left ∧ bodyComponents front = components := by
  induction pieces generalizing components with
  | nil =>
      cases components with
      | nil =>
          cases after
          exact ⟨[], rfl, rfl⟩
      | cons component components => cases after
  | cons piece pieces ih =>
      cases components with
      | nil =>
          cases after
          exact ⟨[], rfl, rfl⟩
      | cons component components =>
          rw [afterComponents] at after
          by_cases silent : isSilent piece = true
          · rw [if_pos silent] at after
            obtain ⟨front, cut, body⟩ := ih _ after
            exact ⟨piece :: front, by rw [cut, List.cons_append], by rw [body_components_quiet piece front silent, body]⟩
          · rw [if_neg silent] at after
            by_cases same : Component.ofPiece piece = component
            · rw [if_pos same] at after
              obtain ⟨front, cut, body⟩ := ih _ after
              refine ⟨piece :: front, by rw [cut, List.cons_append], ?_⟩
              rw [body_components_cons piece front silent, same, body]
            · rw [if_neg same] at after
              cases after

theorem after_components_suffix (components : List Component) (pieces left : List Text)
    (after : afterComponents components pieces = some left) : left <:+ pieces := by
  obtain ⟨front, cut, -⟩ := after_components_split components pieces left after
  exact ⟨front, cut.symm⟩

theorem after_components_more (components : List Component) (pieces left more : List Text)
    (after : afterComponents components pieces = some left) :
    afterComponents components (pieces ++ more) = some (left ++ more) := by
  induction pieces generalizing components with
  | nil =>
      cases components with
      | nil => cases after; cases more <;> rfl
      | cons component components => cases after
  | cons piece pieces ih =>
      cases components with
      | nil => cases after; rfl
      | cons component components =>
          rw [afterComponents] at after
          rw [List.cons_append, afterComponents]
          by_cases silent : isSilent piece = true
          · rw [if_pos silent] at after ⊢
            exact ih _ after
          · rw [if_neg silent] at after ⊢
            by_cases same : Component.ofPiece piece = component
            · rw [if_pos same] at after ⊢
              exact ih _ after
            · rw [if_neg same] at after
              cases after

structure EndsWith (path name : Text) : Prop where
  isName : IsName name
  last : ∃ front, Text.pieces '/' path = front ++ [name]

section Further

variable (path name : Text) (ends : EndsWith path name) (more : List Text) (way : IsWay more)
include ends

theorem EndsWith.lead : ∃ inner, (lead path).2 = inner ++ [name] := by
  obtain ⟨isName, front, cut⟩ := ends
  cases front with
  | nil => exact ⟨[], by rw [lead_named path name [] cut isName.1 isName.2.1]; rfl⟩
  | cons first rest =>
      by_cases root : first = []
      · exact ⟨rest, by rw [lead_root path (rest ++ [name]) (by rw [cut, root]; rfl) (by simp)]⟩
      · by_cases here : first = ['.']
        · exact ⟨rest, by rw [lead_current path (rest ++ [name]) (by rw [cut, here]; rfl)]⟩
        · exact ⟨first :: rest, by rw [lead_named path first (rest ++ [name]) cut root here]; rfl⟩

include way

theorem EndsWith.lead_further :
    Path.lead (path ++ '/' :: Text.joined ['/'] more) = ((Path.lead path).1, (Path.lead path).2 ++ more) := by
  obtain ⟨isName, front, cut⟩ := ends
  have further : Text.pieces '/' (path ++ '/' :: Text.joined ['/'] more) = front ++ [name] ++ more := by
    rw [Text.pieces_append, cut, pieces_names more way]
  cases front with
  | nil =>
      rw [lead_named path name [] cut isName.1 isName.2.1, lead_named _ name more further isName.1 isName.2.1]
      rfl
  | cons first rest =>
      by_cases root : first = []
      · rw [lead_root path (rest ++ [name]) (by rw [cut, root]; rfl) (by simp),
          lead_root _ (rest ++ [name] ++ more) (by rw [further, root]; rfl) (by simp)]
      · by_cases here : first = ['.']
        · rw [lead_current path (rest ++ [name]) (by rw [cut, here]; rfl),
            lead_current _ (rest ++ [name] ++ more) (by rw [further, here]; rfl)]
        · rw [lead_named path first (rest ++ [name]) cut root here,
            lead_named _ first (rest ++ [name] ++ more) further root here]
          rfl

end Further

theorem name_speaks (name : Text) (isName : IsName name) : isSilent name = false := (component_of_name name isName).1

theorem trim_silent_further (front names : List Text) (way : IsWay names) :
    trimSilent (front ++ names) = front.dropWhile isSilent ++ names := by
  obtain ⟨first, others, rfl⟩ := List.exists_cons_of_ne_nil way.nonempty
  have begins : (front ++ first :: others).dropWhile isSilent = front.dropWhile isSilent ++ first :: others := by
    rw [List.dropWhile_append]
    split
    · rename_i none
      rw [List.dropWhile_cons_of_neg (by simp [name_speaks first (way.valid first List.mem_cons_self)]),
        List.isEmpty_iff.mp none, List.nil_append]
    · rfl
  obtain ⟨inner, last, ends⟩ := List.eq_nil_or_concat (first :: others) |>.resolve_left (List.cons_ne_nil _ _)
  have speaks := name_speaks last (way.valid last (by simp [ends]))
  rw [trimSilent, begins, ends, List.concat_eq_append, ← List.append_assoc, List.reverse_append, List.reverse_singleton,
    List.singleton_append, List.dropWhile_cons_of_neg (by simp [speaks]), List.reverse_cons, List.reverse_reverse]

theorem shown_further (root path name : Text) (ends : EndsWith path name) (more : List Text) (way : IsWay more) :
    shown root (path ++ '/' :: Text.joined ['/'] more) = shown root path ++ '/' :: Text.joined ['/'] more ∨
      shown root path = [] ∨ below root path = none ∧ .name name ∈ (components root).dropLast := by
  have further := ends.lead_further path name more way
  obtain ⟨inner, last⟩ := ends.lead
  by_cases empty : root.isEmpty = true
  · simp [shown, below, empty]
  · by_cases leads : (lead root).1 = (lead path).1
    · cases after : afterComponents (bodyComponents (lead root).2) (lead path).2 with
      | none =>
          cases beyond : afterComponents (bodyComponents (lead root).2) ((lead path).2 ++ more) with
          | none => simp [shown, below, empty, leads, after, further, beyond]
          | some left =>
              refine .inr (.inr ⟨by simp [below, empty, leads, after], ?_⟩)
              have whole := (after_components_iff _ _).mp (Option.isSome_iff_exists.mpr ⟨left, beyond⟩)
              have short : ¬ bodyComponents (lead root).2 <+: bodyComponents (lead path).2 := by
                rw [← after_components_iff, after]
                exact Bool.false_ne_true
              rw [body_components_append] at whole
              -- The root goes on behind the path, so the name is not its last one.
              obtain ⟨others, same⟩ := (List.prefix_or_prefix_of_prefix whole (List.prefix_append _ _)).resolve_left short
              have some : others ≠ [] := by
                rintro rfl
                rw [List.append_nil] at same
                exact short (same ▸ List.prefix_rfl)
              have body : bodyComponents (lead path).2 = bodyComponents inner ++ [.name name] := by
                rw [last, body_components_append, body_components_names [name] (by simp [ends.isName])]
                rfl
              rw [components, ← same, body, ← List.append_assoc, List.dropLast_append_of_ne_nil some]
              simp
      | some left =>
          have beyond := after_components_more _ _ left more after
          rcases List.suffix_concat_iff.mp (last ▸ after_components_suffix _ _ left after) with rfl | ⟨front, rfl, -⟩
          · simp [shown, below, empty, leads, after, trimSilent, Text.joined]
          · refine .inl ?_
            have single : IsWay [name] := ⟨by simp, by simp [ends.isName]⟩
            have both : IsWay (name :: more) :=
              ⟨by simp, List.forall_mem_cons.mpr ⟨ends.isName, way.valid⟩⟩
            simp only [shown, below, empty, further, leads, after, beyond, Bool.false_eq_true, if_true, if_false,
              Option.map_some, Option.getD_some, List.append_assoc, List.singleton_append,
              trim_silent_further front _ single, trim_silent_further front _ both]
            rw [List.append_cons, Text.joined_divided '/' _ more (by simp) way.nonempty]
    · simp [shown, below, empty, leads, further]

theorem below_is_some (directory path : Text) :
    (below directory path).isSome = true ↔ directory = [] ∨
      (lead directory).1 = (lead path).1 ∧ bodyComponents (lead directory).2 <+: bodyComponents (lead path).2 := by
  rw [← after_components_iff, below]
  by_cases empty : directory = []
  · simp [empty]
  · by_cases leads : (lead directory).1 = (lead path).1 <;> simp [empty, leads]

def Component.isLead (component : Component) : Bool := component == .root || component == .current

theorem lead_is_lead (path : Text) : ∀ component ∈ (lead path).1, component.isLead = true := by
  unfold lead
  split <;> simp [Component.isLead]

theorem lead_suffix (path : Text) : (lead path).2 <:+ Text.pieces '/' path := by
  unfold lead
  split
  · rename_i cut
    exact cut ▸ List.suffix_cons _ _
  · rename_i cut
    exact cut ▸ List.suffix_cons _ _
  · exact List.suffix_rfl

theorem body_is_no_lead (pieces : List Text) : ∀ component ∈ bodyComponents pieces, component.isLead = false := by
  intro component member
  obtain ⟨piece, -, rfl⟩ := List.mem_map.mp member
  unfold Component.ofPiece
  split <;> rfl

theorem components_parts (path : Text) :
    (components path).filter Component.isLead = (lead path).1 ∧
      (components path).filter (fun component => !component.isLead) = bodyComponents (lead path).2 := by
  have leads := lead_is_lead path
  have bodies := body_is_no_lead (lead path).2
  constructor
  · rw [components, List.filter_append, List.filter_eq_self.mpr leads,
      List.filter_eq_nil_iff.mpr fun component member => by simp [bodies component member], List.append_nil]
  · rw [components, List.filter_append, List.filter_eq_nil_iff.mpr fun component member => by simp [leads component member],
      List.filter_eq_self.mpr fun component member => by simp [bodies component member], List.nil_append]

theorem components_eq_iff (a b : Text) :
    components a = components b ↔
      (lead a).1 = (lead b).1 ∧ bodyComponents (lead a).2 = bodyComponents (lead b).2 := by
  constructor
  · intro same
    rw [← (components_parts a).1, ← (components_parts b).1, ← (components_parts a).2, ← (components_parts b).2, same]
    exact ⟨rfl, rfl⟩
  · rintro ⟨leads, bodies⟩
    rw [components, components, leads, bodies]

theorem after_components_body (components : List Component) (pieces left : List Text)
    (after : afterComponents components pieces = some left) :
    bodyComponents pieces = components ++ bodyComponents left := by
  obtain ⟨front, cut, body⟩ := after_components_split components pieces left after
  rw [cut, body_components_append, body]

theorem body_components_trimmed (pieces : List Text) : bodyComponents (trimSilent pieces) = bodyComponents pieces := by
  have front (pieces : List Text) : bodyComponents (pieces.dropWhile isSilent) = bodyComponents pieces := by
    induction pieces with
    | nil => rfl
    | cons piece rest ih =>
        by_cases silent : isSilent piece = true
        · rw [List.dropWhile_cons_of_pos silent, ih, body_components_quiet piece rest silent]
        · rw [List.dropWhile_cons_of_neg silent]
  have back (pieces : List Text) : bodyComponents pieces.reverse = (bodyComponents pieces).reverse := by
    simp [bodyComponents]
  rw [trimSilent, back, front, back, List.reverse_reverse, front]

theorem components_trimmed (pieces : List Text) (free : ∀ piece ∈ pieces, '/' ∉ piece) :
    components (Text.joined ['/'] (trimSilent pieces)) = bodyComponents pieces := by
  rw [← body_components_trimmed pieces]
  cases trimmed : trimSilent pieces with
  | nil => rfl
  | cons first rest =>
      have inside : ∀ piece ∈ first :: rest, '/' ∉ piece := by
        intro piece member
        rw [← trimmed, trimSilent, List.mem_reverse] at member
        exact free piece ((List.dropWhile_sublist _).mem (List.mem_reverse.mp ((List.dropWhile_sublist _).mem member)))
      have cut := Text.pieces_joined '/' (first :: rest) inside (List.cons_ne_nil _ _)
      have speaks : isSilent first = false := by
        have leads : first :: rest <+: pieces.dropWhile isSilent := by
          rw [← trimmed, trimSilent, ← List.reverse_suffix, List.reverse_reverse]
          exact List.dropWhile_suffix _
        obtain ⟨behind, whole⟩ := leads
        simpa [← whole] using List.head?_dropWhile_not isSilent pieces
      simp only [isSilent, Bool.or_eq_false_iff, beq_eq_false_iff_ne] at speaks
      rw [components, lead_named _ first rest cut speaks.1 speaks.2, List.nil_append]

theorem components_shown (root a b : Text) (same : components a = components b) :
    components (shown root a) = components (shown root b) := by
  have free (path : Text) : ∀ piece ∈ (lead path).2, '/' ∉ piece := fun piece member =>
    Text.piece_free '/' path piece ((lead_suffix path).mem member)
  obtain ⟨leads, bodies⟩ := (components_eq_iff a b).mp same
  by_cases empty : root.isEmpty = true
  · simpa [shown, below, empty] using same
  · by_cases begins : (lead root).1 = (lead a).1
    · cases afterA : afterComponents (bodyComponents (lead root).2) (lead a).2 with
      | none =>
          have afterB : afterComponents (bodyComponents (lead root).2) (lead b).2 = none := by
            rw [← Option.not_isSome_iff_eq_none, after_components_iff, ← bodies, ← after_components_iff, afterA]
            exact Bool.false_ne_true
          simpa [shown, below, empty, begins, afterA, afterB, ← leads] using same
      | some leftA =>
          obtain ⟨leftB, afterB⟩ : ∃ left, afterComponents (bodyComponents (lead root).2) (lead b).2 = some left := by
            rw [← Option.isSome_iff_exists, after_components_iff, ← bodies, ← after_components_iff, afterA]
            rfl
          have behind := after_components_body _ _ _ afterA
          rw [bodies, after_components_body _ _ _ afterB, List.append_cancel_left_eq] at behind
          have insideA : ∀ piece ∈ leftA, '/' ∉ piece := fun piece member =>
            free a piece ((after_components_suffix _ _ _ afterA).mem member)
          have insideB : ∀ piece ∈ leftB, '/' ∉ piece := fun piece member =>
            free b piece ((after_components_suffix _ _ _ afterB).mem member)
          simpa [shown, below, empty, begins, afterA, afterB, ← leads] using
            (components_trimmed leftA insideA).trans (behind.symm.trans (components_trimmed leftB insideB).symm)
    · simpa [shown, below, empty, begins, ← leads] using same

section Way

variable (base : Text) (nonempty : base ≠ [])
include nonempty

theorem below_walked (root : Text) (names : List Text) (way : IsWay names) (inside : (below root base).isSome = true) :
    (below root (names.foldl join base)).isSome = true := by
  obtain ⟨front, whole, body⟩ := lead_below base nonempty names way
  rw [below_is_some] at inside ⊢
  refine inside.imp id fun ⟨leads, begins⟩ => ?_
  rw [join_names base names way, whole]
  refine ⟨leads, ?_⟩
  rw [body_components_append, ← body]
  exact begins.trans (List.prefix_append _ _)

theorem walked_ends (front : List Text) (name : Text) (way : IsWay (front ++ [name])) :
    EndsWith ((front ++ [name]).foldl join base) name ∧
      ∃ above, above ≠ [] ∧ Text.pieces '/' ((front ++ [name]).foldl join base) = above ++ [name] := by
  obtain ⟨outer, slash, -⟩ := with_slash_cases base nonempty
  have cut : Text.pieces '/' ((front ++ [name]).foldl join base) = Text.pieces '/' outer ++ front ++ [name] := by
    rw [join_names base _ way, slash, List.append_assoc, List.singleton_append, Text.pieces_append, pieces_names _ way,
      List.append_assoc]
  exact ⟨⟨way.valid name (by simp), _, cut⟩, _, by simp [Text.pieces_ne_nil], cut⟩

omit nonempty in
theorem walked_further (names more : List Text) (way : IsWay names) (further : IsWay more) :
    (names ++ more).foldl join base = names.foldl join base ++ '/' :: Text.joined ['/'] more := by
  have both : IsWay (names ++ more) := ⟨by simp [way.nonempty], fun name member =>
    (List.mem_append.mp member).elim (way.valid name) (further.valid name)⟩
  rw [join_names base _ both, join_names base names way, Text.joined_divided '/' names more way.nonempty further.nonempty,
    List.append_assoc]

end Way

end BlockSearch.Path
