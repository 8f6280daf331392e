import BlockSearch.Symbol.Cache

set_option autoImplicit false

namespace BlockSearch.Symbol.Cache

def Faithful (cache : Cache) : Prop :=
  ∀ prepared ∈ cache.recent, prepared.pattern = Pattern.ofSymbols prepared.pattern.symbols

theorem empty_faithful (capacity : Nat) : (empty capacity).Faithful :=
  fun _ member => absurd member List.not_mem_nil

theorem mem_use (cache : Cache) (prepared other : Prepared) (member : other ∈ (cache.use prepared).recent) :
    other = prepared ∨ other ∈ cache.recent ∧ other.pattern.symbols ≠ prepared.pattern.symbols := by
  rcases List.mem_cons.mp (List.mem_of_mem_take member) with same | kept
  · exact .inl same
  · exact .inr ⟨(List.mem_filter.mp kept).1, by simpa using (List.mem_filter.mp kept).2⟩

theorem use_faithful (cache : Cache) (prepared : Prepared) (faithful : cache.Faithful)
    (made : prepared.pattern = Pattern.ofSymbols prepared.pattern.symbols) : (cache.use prepared).Faithful := by
  intro other member
  rcases mem_use cache prepared other member with rfl | ⟨kept, -⟩
  · exact made
  · exact faithful other kept

theorem find_faithful (cache : Cache) (symbols : List Text) (prepared : Prepared) (faithful : cache.Faithful)
    (found : cache.find? symbols = some prepared) : prepared.pattern = Pattern.ofSymbols symbols := by
  have made := faithful prepared (List.mem_of_find?_eq_some found)
  have same := List.find?_some found
  rw [beq_iff_eq] at same
  rw [made, same]

theorem lookup_pattern (cache : Cache) (symbols : List Text) (faithful : cache.Faithful) :
    (cache.lookup symbols).1.pattern = Pattern.ofSymbols symbols := by
  unfold lookup
  split
  · rename_i prepared found
    exact find_faithful cache symbols prepared faithful found
  · rfl

theorem prepare_accepted (cache : Cache) (refuses : Refusal) (symbols : List Text) (accepted : refuses symbols = none) :
    cache.prepare refuses symbols = (.ok (cache.lookup symbols).1, (cache.lookup symbols).2) := by
  simp [prepare, Pattern.make, accepted]

-- No list is kept that would be refused now, so that what was asked before cannot turn a refusal into a pattern.
structure Keeps (refuses : Refusal) (cache : Cache) : Prop where
  faithful : cache.Faithful
  accepted : ∀ prepared ∈ cache.recent, refuses prepared.pattern.symbols = none

variable {refuses : Refusal} {cache : Cache}

theorem empty_keeps (refuses : Refusal) (capacity : Nat) : Keeps refuses (empty capacity) :=
  ⟨empty_faithful capacity, fun _ member => absurd member List.not_mem_nil⟩

theorem Keeps.use (keeps : Keeps refuses cache) (prepared : Prepared)
    (genuine : prepared.pattern = Pattern.ofSymbols prepared.pattern.symbols)
    (accepted : refuses prepared.pattern.symbols = none) : Keeps refuses (cache.use prepared) := by
  refine ⟨use_faithful cache prepared keeps.faithful genuine, fun other member => ?_⟩
  rcases mem_use cache prepared other member with rfl | ⟨kept, -⟩
  · exact accepted
  · exact keeps.accepted other kept

theorem Keeps.find (keeps : Keeps refuses cache) (symbols : List Text) (prepared : Prepared)
    (found : cache.find? symbols = some prepared) : refuses symbols = none := by
  have same := List.find?_some found
  rw [beq_iff_eq] at same
  exact same ▸ keeps.accepted prepared (List.mem_of_find?_eq_some found)

theorem Keeps.lookup (keeps : Keeps refuses cache) (symbols : List Text) (accepted : refuses symbols = none) :
    Keeps refuses (cache.lookup symbols).2 := by
  unfold Cache.lookup
  split
  · rename_i prepared found
    have member := List.mem_of_find?_eq_some found
    exact keeps.use prepared (keeps.faithful prepared member) (keeps.accepted prepared member)
  · obtain ⟨faithful, accepted⟩ := keeps.use ⟨cache.made, Pattern.ofSymbols symbols⟩ rfl accepted
    exact ⟨faithful, accepted⟩

theorem Keeps.prepare_refused (keeps : Keeps refuses cache) (symbols : List Text) (reason : Text)
    (refused : refuses symbols = some reason) : cache.prepare refuses symbols = (.error reason, cache) := by
  have missing : cache.find? symbols = none := by
    cases found : cache.find? symbols with
    | none => rfl
    | some prepared => simp [keeps.find symbols prepared found] at refused
  simp [prepare, Pattern.make, missing, refused]

theorem Keeps.prepare (keeps : Keeps refuses cache) (symbols : List Text) :
    Keeps refuses (cache.prepare refuses symbols).2 := by
  cases said : refuses symbols with
  | none =>
      rw [prepare_accepted cache refuses symbols said]
      exact keeps.lookup symbols said
  | some reason =>
      rw [keeps.prepare_refused symbols reason said]
      exact keeps

end BlockSearch.Symbol.Cache
