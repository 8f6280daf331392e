import BlockSearch.Proofs.Compaction.Layout
import BlockSearch.Proofs.Text.Decimal
import BlockSearch.Report.Styled

set_option autoImplicit false

namespace BlockSearch.Report

def escape : Char := '\x1b'

def isParameter (c : Char) : Bool := c.isDigit || c == ';'

-- What stands behind a sequence that chooses a rendition: an escape, a bracket, numbers with semicolons between, and `m`.
def afterRendition : Text → Option Text
  | c :: '[' :: rest =>
      if c = escape then
        match rest.dropWhile isParameter with
        | 'm' :: behind => some behind
        | _ => none
      else none
  | _ => none

theorem after_rendition_shorter (text behind : Text) (found : afterRendition text = some behind) :
    behind.length < text.length := by
  unfold afterRendition at found
  split at found
  · rename_i c rest
    split at found
    · split at found
      · rename_i mark last
        cases found
        have fewer := (List.dropWhile_suffix (l := rest) isParameter).length_le
        simp only [last, List.length_cons] at fewer ⊢
        omega
      · cases found
    · cases found
  · cases found

def withoutRenditions (text : Text) : Text :=
  match text with
  | [] => []
  | c :: rest =>
      match _given : afterRendition (c :: rest) with
      | some behind => withoutRenditions behind
      | none => c :: withoutRenditions rest
termination_by text.length
decreasing_by
  · exact after_rendition_shorter _ _ _given
  · exact Nat.lt_succ_self _

theorem without_renditions_skip (text behind : Text) (found : afterRendition text = some behind) :
    withoutRenditions text = withoutRenditions behind := by
  cases text with
  | nil => cases found
  | cons c rest =>
      rw [withoutRenditions]
      split
      · rename_i other given
        rw [given, Option.some.injEq] at found
        rw [found]
      · rename_i given
        rw [given] at found
        cases found

theorem without_renditions_free (text rest : Text) (free : escape ∉ text) :
    withoutRenditions (text ++ rest) = text ++ withoutRenditions rest := by
  induction text with
  | nil => rfl
  | cons c text ih =>
      simp only [List.mem_cons, not_or] at free
      have plain : afterRendition (c :: (text ++ rest)) = none := by
        unfold afterRendition
        split
        · rename_i d behind same
          obtain ⟨rfl, -⟩ := List.cons.inj same
          rw [if_neg (Ne.symm free.1)]
        · rfl
      rw [List.cons_append, withoutRenditions]
      split
      · rename_i behind given
        rw [plain] at given
        cases given
      · rw [ih free.2, List.cons_append]

section Marks

variable (code : Char) (number : isParameter code = true) (rest : Text)
include number

theorem without_renditions_rendition : withoutRenditions (rendition code ++ rest) = withoutRenditions rest := by
  apply without_renditions_skip
  have last : isParameter 'm' = false := rfl
  simp [rendition, afterRendition, escape, number, last]

theorem without_renditions_colour : withoutRenditions (colour code ++ rest) = withoutRenditions rest := by
  apply without_renditions_skip
  have last : isParameter 'm' = false := rfl
  have three : isParameter '3' = true := rfl
  simp [colour, afterRendition, escape, number, last, three]

end Marks

theorem without_renditions_reset (rest : Text) : withoutRenditions (resetMark ++ rest) = withoutRenditions rest :=
  without_renditions_rendition '0' rfl rest

theorem without_renditions_mark (style : Style) (rest : Text) :
    withoutRenditions (style.mark ++ rest) = withoutRenditions rest := by
  cases style with
  | range => rw [Style.mark, List.append_assoc, without_renditions_reset, without_renditions_colour _ rfl]
  | path =>
      rw [Style.mark, List.append_assoc, List.append_assoc, without_renditions_reset,
        without_renditions_rendition _ rfl, without_renditions_colour _ rfl]
  | remark => rw [Style.mark, List.append_assoc, without_renditions_reset, without_renditions_rendition _ rfl]
  | trailer => rw [Style.mark, List.append_assoc, without_renditions_reset, without_renditions_colour _ rfl]

theorem without_renditions_piece (piece : Piece) (rest : Text) (free : escape ∉ piece.text) :
    withoutRenditions (piece.written ++ rest) = piece.text ++ withoutRenditions rest := by
  cases piece with
  | mk style text =>
      cases style with
      | none => exact without_renditions_free text rest free
      | some style =>
          rw [Piece.written, List.append_assoc, List.append_assoc, without_renditions_mark,
            without_renditions_free text _ free, without_renditions_reset]

theorem without_renditions_marks (pieces : List Piece) (free : ∀ piece ∈ pieces, escape ∉ piece.text) :
    withoutRenditions (withMarks pieces) = withoutMarks pieces := by
  induction pieces with
  | nil => rw [withMarks, withoutMarks, List.flatMap_nil, List.flatMap_nil, withoutRenditions]
  | cons piece pieces ih =>
      have others := ih fun other later => free other (List.mem_cons_of_mem _ later)
      rw [withMarks, List.flatMap_cons, without_renditions_piece _ _ (free piece List.mem_cons_self), ← withMarks, others,
        withoutMarks, withoutMarks, List.flatMap_cons]

section Plain

variable (detail : Detail) (outcome : Outcome)

theorem without_marks_append (a b : List Piece) : withoutMarks (a ++ b) = withoutMarks a ++ withoutMarks b :=
  List.flatMap_append

theorem without_marks_joined (parts : List (List Piece)) :
    withoutMarks ([gap].intercalate parts) = Text.joined ['\n', '\n'] (parts.map withoutMarks) := by
  induction parts with
  | nil => rfl
  | cons part parts ih =>
      cases parts with
      | nil => simp [Text.joined]
      | cons next parts =>
          rw [List.intercalate_cons_cons, without_marks_append, without_marks_append, ih]
          simp only [List.map_cons, Text.joined, List.intercalate_cons_cons]
          rfl

theorem without_marks_entry (finding : Finding) :
    withoutMarks (entryPieces detail finding) = entry detail finding := by
  cases debug : detail.debug <;>
    simp [withoutMarks, entryPieces, headerPieces, entry, header, Piece.plain, Piece.styled, debug]

theorem joined_with_note (separator note : Text) (entries : List Text) (some : entries ≠ []) :
    Text.joined separator (entries ++ [note]) = Text.joined separator entries ++ (separator ++ note) := by
  induction entries with
  | nil => exact absurd rfl some
  | cons entry entries ih =>
      cases entries with
      | nil => simp [Text.joined]
      | cons next entries =>
          have others := ih (List.cons_ne_nil _ _)
          simp only [Text.joined, List.cons_append, List.intercalate_cons_cons, List.append_assoc] at others ⊢
          rw [others]

theorem written_plain (some : outcome.findings ≠ []) :
    withoutMarks (piecesOf detail outcome) = text detail outcome ++ ['\n'] := by
  have entries : (outcome.findings.map (entryPieces detail)).map withoutMarks =
      outcome.findings.map (entry detail) := by
    rw [List.map_map]
    exact List.map_congr_left fun finding _ => without_marks_entry detail finding
  rw [piecesOf, without_marks_append, without_marks_append, without_marks_joined, entries, text]
  congr 1
  cases note : trailer outcome.findings.length outcome.total with
  | none => simp [trailerPieces, note, withoutMarks]
  | some note' =>
      rw [Option.toList_some, joined_with_note _ _ _ (by simpa using some)]
      simp [trailerPieces, note, withoutMarks, gap, Piece.plain, Piece.styled]

end Plain

section Shown

theorem number_free (n : Nat) : escape ∉ Text.ofNat n := fun member =>
  absurd (Text.of_nat_is_digit n escape member) (by decide)

theorem integer_free (n : Int) : escape ∉ Text.ofInt n := by
  cases n with
  | ofNat n => exact number_free n
  | negSucc n =>
      have signed : Text.ofInt (.negSucc n) = '-' :: Text.ofNat (n + 1) := by
        simp [Text.ofInt, Text.ofNat, toString, Int.repr]
      rw [signed, List.mem_cons, not_or]
      exact ⟨by decide, number_free (n + 1)⟩

def IsClean (finding : Finding) : Prop :=
  escape ∉ finding.file.path ∧ escape ∉ finding.block.symbol ∧ escape ∉ finding.block.text

instance (finding : Finding) : Decidable (IsClean finding) := inferInstanceAs (Decidable (_ ∧ _ ∧ _))

theorem body_free (detail : Detail) (finding : Finding) (clean : escape ∉ finding.block.text) :
    escape ∉ body detail finding := by
  unfold body
  split
  · intro member
    rcases Compaction.mem_compact escape _ member with kept | tab | newline
    · exact clean kept
    · exact absurd tab (by decide)
    · exact absurd newline (by decide)
  · exact clean

theorem remark_free (finding : Finding) (clean : escape ∉ finding.block.symbol) : escape ∉ remark finding := by
  unfold remark
  refine List.not_mem_append (List.not_mem_append (List.not_mem_append (List.not_mem_append (List.not_mem_append
    (List.not_mem_append (List.not_mem_append (List.not_mem_append ?_ (integer_free _)) ?_) clean) ?_)
    (number_free _)) ?_) (number_free _)) ?_ <;> decide

theorem header_free (detail : Detail) (finding : Finding) (clean : IsClean finding) :
    escape ∉ header detail finding := by
  have colon : escape ≠ ':' := by decide
  have range : escape ∉ lineRange finding.block :=
    List.not_mem_append (number_free _) (List.not_mem_cons_of_ne_of_not_mem colon (number_free _))
  have remarked : escape ∉ if detail.debug then remark finding else [] := by
    split
    · exact remark_free finding clean.2.1
    · exact List.not_mem_nil
  have path := List.not_mem_cons_of_ne_of_not_mem colon clean.1
  exact List.not_mem_append (List.not_mem_append range path) remarked

theorem trailer_free (shown total : Nat) : ∀ note ∈ (trailer shown total).toList, escape ∉ note := by
  intro note among
  unfold trailer at among
  split at among
  · rw [Option.toList_some, List.mem_singleton] at among
    rw [among]
    refine List.not_mem_append (List.not_mem_append (List.not_mem_append (List.not_mem_append ?_ (number_free _)) ?_)
      (number_free _)) ?_ <;> decide
  · exact absurd among List.not_mem_nil

theorem text_free (detail : Detail) (outcome : Outcome) (clean : ∀ finding ∈ outcome.findings, IsClean finding) :
    escape ∉ text detail outcome := by
  intro member
  rcases Text.mem_joined _ _ _ member with between | ⟨part, present, inside⟩
  · exact absurd between (by decide)
  · rcases List.mem_append.mp present with entries | note
    · obtain ⟨finding, among, rfl⟩ := List.mem_map.mp entries
      simp only [entry, List.mem_append, List.mem_cons] at inside
      rcases inside with head | newline | body
      · exact header_free detail finding (clean finding among) head
      · exact absurd newline (by decide)
      · exact body_free detail finding (clean finding among).2.2 body
    · exact trailer_free _ _ part note inside

end Shown

theorem renderings_agree (detail : Detail) (outcome : Outcome) (some : outcome.findings ≠ []) :
    written false detail outcome = text detail outcome ++ ['\n'] ∧
      ((∀ finding ∈ outcome.findings, IsClean finding) →
        withoutRenditions (written true detail outcome) = text detail outcome ++ ['\n']) := by
  have plain := written_plain detail outcome some
  refine ⟨plain, fun clean => ?_⟩
  have whole : escape ∉ withoutMarks (piecesOf detail outcome) := by
    rw [plain, List.mem_append, not_or]
    exact ⟨text_free detail outcome clean, by decide⟩
  have free : ∀ piece ∈ piecesOf detail outcome, escape ∉ piece.text := fun piece among inside =>
    whole (List.mem_flatMap.mpr ⟨piece, among, inside⟩)
  exact (without_renditions_marks _ free).trans plain

-- Two blocks of three, the second of which is empty once it is compacted.
theorem renderings_agree_on_empty_body :
    let file : FileEntry := ⟨"src/user.ts".toList, "/w/src/user.ts".toList, 64, 0⟩
    let outcome : Outcome := ⟨["User".toList],
      [⟨file, ⟨2, 3, 1, "User".toList, "class User \x7b\n\x7d".toList⟩, 1008⟩,
        ⟨file, ⟨9, 9, 70, "User".toList, "// User".toList⟩, -10⟩], 3, 1⟩
    outcome.findings ≠ [] ∧ (∀ finding ∈ outcome.findings, IsClean finding) ∧
      written false ⟨true, true⟩ outcome = text ⟨true, true⟩ outcome ++ ['\n'] ∧
      withoutRenditions (written true ⟨true, true⟩ outcome) = text ⟨true, true⟩ outcome ++ ['\n'] := by
  intro file outcome
  have some : outcome.findings ≠ [] := List.cons_ne_nil _ _
  have clean : ∀ finding ∈ outcome.findings, IsClean finding := by decide +kernel
  obtain ⟨plain, styled⟩ := renderings_agree ⟨true, true⟩ outcome some
  exact ⟨some, clean, plain, styled clean⟩

end BlockSearch.Report
