import BlockSearch.Proofs.Compaction.Lines
import BlockSearch.Proofs.Compaction.Openings

set_option autoImplicit false

namespace BlockSearch.Compaction

variable (c : Char)

theorem mem_kept_line (text : Text) (line : Line) (present : line ∈ keptLines text) (member : c ∈ line.body) :
    c ∈ text := by
  rw [kept_lines_eq] at present
  obtain ⟨piece, among, kept⟩ := List.mem_filterMap.mp present
  obtain ⟨indentation, cut, whole, -⟩ := of_text_divides piece line kept
  refine Text.mem_of_piece '\n' c text piece among ?_
  simp [whole, member]

theorem mem_compact (text : Text) (member : c ∈ compact text) : c ∈ text ∨ c = '\t' ∨ c = '\n' := by
  rcases Text.mem_joined ['\n'] c _ member with newline | ⟨part, present, inside⟩
  · exact .inr (.inr (List.mem_singleton.mp newline))
  · obtain ⟨line, kept, rfl⟩ := List.mem_map.mp present
    rcases List.mem_append.mp inside with tab | body
    · exact .inr (.inl (List.eq_of_mem_replicate tab))
    · exact .inl ((without_delimited_sublist text).subset (mem_kept_line c _ line kept body))

end BlockSearch.Compaction
