import BlockSearch.Block.Finder
import BlockSearch.Proofs.Block.Growth

set_option autoImplicit false

namespace BlockSearch.Block

open BlockSearch.Symbol (Pattern Occurrence)

theorem extent_at_eq_some (limits : Limits) (lines : List Text) (floor : Nat) (occurrence : Occurrence)
    (extent : Extent) :
    extentAt limits lines floor occurrence = some extent ↔
      floor ≤ occurrence.place.line ∧ occurrence.place.column ≤ limits.maxColumn ∧
        hasCleanEdges occurrence = true ∧ Extent.grow lines floor occurrence = some extent ∧
        Text.size extent.text ≤ limits.maxSize := by
  unfold extentAt
  split
  · rename_i refused
    constructor
    · intro made
      simp at made
    · intro ⟨above, near, clean, _⟩
      rcases refused with below | far | unclean
      · omega
      · omega
      · simp [clean] at unclean
  · rename_i accepted
    simp only [not_or, Nat.not_lt, Bool.not_eq_false] at accepted
    simp only [Option.filter_eq_some_iff, decide_eq_true_eq]
    exact ⟨fun made => ⟨accepted.1, accepted.2.1, accepted.2.2, made⟩, fun made => made.2.2.2⟩

def Within (lines : List Text) (occurrences : List Occurrence) : Prop :=
  ∀ occurrence ∈ occurrences, headingLast occurrence < lines.length

theorem Within.tail {lines : List Text} {occurrence : Occurrence} {rest : List Occurrence}
    (within : Within lines (occurrence :: rest)) : Within lines rest :=
  fun other later => within other (List.mem_cons_of_mem _ later)

theorem Within.front {lines : List Text} {front back : List Occurrence} (within : Within lines (front ++ back)) :
    Within lines front :=
  fun other earlier => within other (List.mem_append_left _ earlier)

theorem Within.back {lines : List Text} {front back : List Occurrence} (within : Within lines (front ++ back)) :
    Within lines back :=
  fun other later => within other (List.mem_append_right _ later)

theorem occurrences_within (pattern : Pattern) (content : Text) :
    Within (Text.pieces '\n' content) (pattern.occurrences content) := by
  intro occurrence member
  obtain ⟨before, stands⟩ := pattern.occurrences_stand content occurrence member
  exact heading_within stands

theorem of_extent_lines (limits : Limits) (lines : List Text) (floor : Nat) (occurrence : Occurrence)
    (extent : Extent) (within : headingLast occurrence < lines.length)
    (made : extentAt limits lines floor occurrence = some extent) :
    floor < (ofExtent occurrence extent).firstLine ∧
      (ofExtent occurrence extent).firstLine ≤ occurrence.place.line + 1 ∧
      occurrence.place.line + 1 ≤ (ofExtent occurrence extent).lastLine := by
  obtain ⟨above, -, -, growth, -⟩ := (extent_at_eq_some limits lines floor occurrence extent).mp made
  have grown := Extent.grow_grown lines floor occurrence extent within growth
  have fromFloor := grown.fromFloor
  have toHeading := grown.toHeading
  have toLast := grown.line_le_last
  simp only [ofExtent]
  omega

variable (limits : Limits) (lines : List Text)

theorem collect_source (floor : Nat) (occurrences : List Occurrence) (block : Block)
    (within : Within lines occurrences) (member : block ∈ collect limits lines floor occurrences) :
    ∃ occurrence ∈ occurrences, ∃ lower extent, floor ≤ lower ∧
      extentAt limits lines lower occurrence = some extent ∧ block = ofExtent occurrence extent := by
  induction occurrences generalizing floor with
  | nil => simp [collect] at member
  | cons occurrence rest ih =>
      simp only [collect] at member
      split at member
      · rename_i extent made
        rcases List.mem_cons.mp member with here | behind
        · exact ⟨occurrence, List.mem_cons_self, floor, extent, Nat.le_refl _, made, here⟩
        · obtain ⟨other, later, lower, grown, raised, source⟩ := ih _ within.tail behind
          have lines := of_extent_lines limits lines floor occurrence extent (within _ List.mem_cons_self) made
          simp only [ofExtent] at lines
          exact ⟨other, List.mem_cons_of_mem _ later, lower, grown, by omega, source⟩
      · obtain ⟨other, later, source⟩ := ih _ within.tail member
        exact ⟨other, List.mem_cons_of_mem _ later, source⟩

omit lines in
theorem find_origin (pattern : Pattern) (content : Text) (block : Block) (member : block ∈ find limits pattern content) :
    ∃ occurrence ∈ pattern.occurrences content, ∃ before floor extent, occurrence.Stands content before ∧
      extentAt limits (Text.pieces '\n' content) floor occurrence = some extent ∧ block = ofExtent occurrence extent := by
  unfold find at member
  split at member
  · obtain ⟨occurrence, present, floor, extent, -, made, same⟩ :=
      collect_source limits _ 0 _ block (occurrences_within pattern content) member
    obtain ⟨before, stands⟩ := pattern.occurrences_stand content occurrence present
    exact ⟨occurrence, present, before, floor, extent, stands, made, same⟩
  · exact absurd member List.not_mem_nil

theorem collect_above (floor : Nat) (occurrences : List Occurrence) (within : Within lines occurrences) :
    ∀ block ∈ collect limits lines floor occurrences, floor < block.firstLine := by
  intro block member
  obtain ⟨occurrence, present, lower, extent, raised, made, rfl⟩ :=
    collect_source limits lines floor occurrences block within member
  exact Nat.lt_of_le_of_lt raised
    (of_extent_lines limits lines lower occurrence extent (within _ present) made).1

theorem collect_ordered (floor : Nat) (occurrences : List Occurrence) (within : Within lines occurrences) :
    (collect limits lines floor occurrences).Pairwise fun a b => a.lastLine < b.firstLine := by
  induction occurrences generalizing floor with
  | nil => exact List.Pairwise.nil
  | cons occurrence rest ih =>
      simp only [collect]
      split
      · exact List.pairwise_cons.mpr ⟨collect_above limits lines _ rest within.tail, ih _ within.tail⟩
      · exact ih floor within.tail

def floorAfter (floor : Nat) (blocks : List Block) : Nat := (blocks.getLast?.map Block.lastLine).getD floor

theorem floor_after_cons (floor : Nat) (block : Block) (blocks : List Block) :
    floorAfter floor (block :: blocks) = floorAfter block.lastLine blocks := by
  cases last : blocks.getLast? <;> simp [floorAfter, List.getLast?_cons, last]

theorem collect_append (floor : Nat) (a b : List Occurrence) :
    collect limits lines floor (a ++ b) =
      collect limits lines floor a ++
        collect limits lines (floorAfter floor (collect limits lines floor a)) b := by
  induction a generalizing floor with
  | nil => rfl
  | cons occurrence rest ih =>
      simp only [List.cons_append, collect]
      split
      · rw [ih, floor_after_cons]
        rfl
      · exact ih floor

end BlockSearch.Block
