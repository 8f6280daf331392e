import BlockSearch.Proofs.FileTree.Following

set_option autoImplicit false

namespace BlockSearch

def IsName (name : Text) : Prop := name ≠ [] ∧ name ≠ ['.'] ∧ name ≠ ['.', '.'] ∧ '/' ∉ name

instance (name : Text) : Decidable (IsName name) :=
  inferInstanceAs (Decidable (name ≠ [] ∧ name ≠ ['.'] ∧ name ≠ ['.', '.'] ∧ '/' ∉ name))

structure IsWay (names : List Text) : Prop where
  nonempty : names ≠ []
  valid : ∀ name ∈ names, IsName name

mutual
def Node.isPlain : Node → Bool
  | .file _ => true
  | .directory entries => entries.isPlain
  | .link _ => false

def Directory.isPlain : Directory → Bool
  | .empty => true
  | .entry name node rest => decide (IsName name) && (rest.find? name).isNone && node.isPlain && rest.isPlain
end

def Node.fileAt? : List Text → Node → Option Bytes
  | [], .file content => some content
  | name :: names, .directory entries => (entries.find? name).bind (fileAt? names)
  | _, _ => none

def Directory.fileAt? (names : List Text) (directory : Directory) : Option Bytes :=
  (Node.directory directory).fileAt? names

theorem Node.file_at_file (content : Bytes) (names : List Text) (some : names ≠ []) :
    (Node.file content).fileAt? names = none := by
  cases names with
  | nil => exact absurd rfl some
  | cons name rest => rfl

namespace Directory

theorem plain_entry (name : Text) (node : Node) (rest : Directory) :
    (Directory.entry name node rest).isPlain = true ↔
      IsName name ∧ rest.find? name = none ∧ node.isPlain = true ∧ rest.isPlain = true := by
  simp [isPlain, and_assoc]

theorem find_plain (directory : Directory) (plain : directory.isPlain = true) (name : Text) (node : Node)
    (found : directory.find? name = some node) : IsName name ∧ node.isPlain = true := by
  cases directory with
  | empty => simp [find?] at found
  | entry other first rest =>
      obtain ⟨isName, -, firstPlain, restPlain⟩ := (plain_entry other first rest).mp plain
      by_cases same : other = name
      · simp only [find?, if_pos same, Option.some.injEq] at found
        exact ⟨same ▸ isName, found ▸ firstPlain⟩
      · simp only [find?, if_neg same] at found
        exact find_plain rest restPlain name node found

theorem file_at_some (directory : Directory) (names : List Text) (content : Bytes)
    (found : directory.fileAt? names = some content) :
    ∃ name rest node, names = name :: rest ∧ directory.find? name = some node ∧ node.fileAt? rest = some content := by
  cases names with
  | nil => simp [fileAt?, Node.fileAt?] at found
  | cons name rest =>
      obtain ⟨node, there, inside⟩ := Option.bind_eq_some_iff.mp found
      exact ⟨name, rest, node, rfl, there, inside⟩

theorem file_at_ne_nil (directory : Directory) (names : List Text) (content : Bytes)
    (found : directory.fileAt? names = some content) : names ≠ [] := by
  obtain ⟨name, rest, -, rfl, -⟩ := directory.file_at_some names content found
  exact List.cons_ne_nil name rest

theorem file_at_names (directory : Directory) (plain : directory.isPlain = true) (names : List Text) (content : Bytes)
    (found : directory.fileAt? names = some content) : ∀ name ∈ names, IsName name := by
  induction names generalizing directory with
  | nil => simp
  | cons name rest ih =>
      obtain ⟨_, _, node, same, there, inside⟩ := file_at_some directory _ content found
      obtain ⟨rfl, rfl⟩ := List.cons.inj same
      obtain ⟨isName, nodePlain⟩ := find_plain directory plain name node there
      intro other member
      rcases List.mem_cons.mp member with here | later
      · exact here ▸ isName
      · cases node with
        | directory entries => exact ih entries nodePlain inside other later
        | file bytes =>
            cases rest with
            | nil => exact absurd later List.not_mem_nil
            | cons next others => simp [Node.fileAt?] at inside
        | link target => simp [Node.isPlain] at nodePlain

theorem file_at_way (directory : Directory) (plain : directory.isPlain = true) (names : List Text) (content : Bytes)
    (found : directory.fileAt? names = some content) : IsWay names :=
  ⟨directory.file_at_ne_nil names content found, directory.file_at_names plain names content found⟩

end Directory

namespace Location

theorem follow_name (links : Nat) (location : Location) (plain : location.current.isPlain = true) (name : Text)
    (behind : List Text) (isName : IsName name) (further : behind ≠ []) :
    follow links location (name :: behind) =
      match location.current.find? name with
      | some (.directory entries) => follow links (location.down name entries) behind
      | _ => none := by
  obtain ⟨again, walks⟩ : ∃ again, follow links = walk again := by
    cases links <;> exact ⟨_, rfl⟩
  obtain ⟨nonempty, notHere, notAbove, -⟩ := isName
  rw [walks, walk, if_neg (by simp [nonempty, notHere]), if_neg notAbove]
  cases found : location.current.find? name with
  | none => rfl
  | some node =>
      cases node with
      | directory entries => rfl
      | file content => simp [further]
      | link target =>
          have plainNode := (location.current.find_plain plain name _ found).2
          simp [Node.isPlain] at plainNode

-- Names lead to a directory, below which every way to a file goes on, or they lead nowhere and to no file.
theorem follow_names (links : Nat) (location : Location) (plain : location.current.isPlain = true) (names : List Text)
    (valid : ∀ name ∈ names, IsName name) :
    (∃ reached, follow links location (names ++ [[]]) = some (.directory reached) ∧
        reached.current.isPlain = true ∧
        ∀ rest, rest ≠ [] → location.current.fileAt? (names ++ rest) = reached.current.fileAt? rest) ∨
      follow links location (names ++ [[]]) = none ∧
        ∀ rest, rest ≠ [] → location.current.fileAt? (names ++ rest) = none := by
  induction names generalizing location with
  | nil =>
      refine .inl ⟨location, ?_, plain, fun _ _ => rfl⟩
      cases links <;> simp [follow, walk]
  | cons name names ih =>
      have isName := valid name List.mem_cons_self
      rw [List.cons_append, follow_name links location plain name _ isName (by simp)]
      cases found : location.current.find? name with
      | none => exact .inr ⟨rfl, fun rest _ => by simp [Directory.fileAt?, Node.fileAt?, found]⟩
      | some node =>
          have nodePlain := (location.current.find_plain plain name node found).2
          cases node with
          | directory entries =>
              have inside := ih (location.down name entries) nodePlain fun other later =>
                valid other (List.mem_cons_of_mem _ later)
              have same (rest : List Text) :
                  location.current.fileAt? (name :: names ++ rest) = entries.fileAt? (names ++ rest) := by
                simp [Directory.fileAt?, Node.fileAt?, found]
              simp only [same]
              exact inside
          | file content =>
              refine .inr ⟨rfl, fun rest some => ?_⟩
              rw [Directory.fileAt?, List.cons_append, Node.fileAt?, found, Option.bind_some]
              exact Node.file_at_file content (names ++ rest) (by simp [some])
          | link target => simp [Node.isPlain] at nodePlain

end Location

namespace Path

theorem relative_of_name (name behind : Text) (isName : IsName name) : isAbsolute (name ++ behind) = false := by
  rw [← Bool.not_eq_true, is_absolute_append _ _ isName.1, is_absolute_iff]
  intro slash
  exact isName.2.2.2 (List.mem_of_head? slash)

theorem with_slash_named (directory name : Text) (isName : IsName name) :
    withSlash (withSlash directory ++ name) = withSlash directory ++ name ++ ['/'] := by
  have last : Text.endsWith ['/'] (withSlash directory ++ name) = false := by
    rw [← Bool.not_eq_true, Text.ends_with_iff, List.getLast?_append_of_ne_nil _ isName.1]
    exact fun slash => isName.2.2.2 (List.mem_of_getLast? slash)
  rw [withSlash, last, if_neg (by simp [isName.1])]
  rfl

theorem join_names (directory : Text) (names : List Text) (way : IsWay names) :
    names.foldl join directory = withSlash directory ++ Text.joined ['/'] names := by
  induction names generalizing directory with
  | nil => exact absurd rfl way.nonempty
  | cons name rest ih =>
      have isName := way.valid name List.mem_cons_self
      have relative : isAbsolute name = false := by simpa using relative_of_name name [] isName
      rw [List.foldl_cons, join_relative _ _ relative]
      cases rest with
      | nil => simp [Text.joined]
      | cons next others =>
          rw [ih _ ⟨List.cons_ne_nil _ _, fun other later => way.valid other (List.mem_cons_of_mem _ later)⟩,
            with_slash_named _ _ isName]
          simp [Text.joined]

theorem pieces_names (names : List Text) (way : IsWay names) :
    Text.pieces '/' (Text.joined ['/'] names) = names :=
  Text.pieces_joined '/' names (fun name member => (way.valid name member).2.2.2) way.nonempty

theorem relative_of_names (names : List Text) (way : IsWay names) :
    isAbsolute (Text.joined ['/'] names) = false := by
  obtain ⟨name, rest, rfl⟩ := List.exists_cons_of_ne_nil way.nonempty
  have cut := Text.joined_prepend ['/'] name [] rest
  rw [List.append_nil] at cut
  rw [cut]
  exact relative_of_name name _ (way.valid name List.mem_cons_self)

theorem slashed_straight (path : Text) (straight : '\x5c' ∉ path) : slashed path = path := by
  have kept : ∀ c ∈ path, (if c = '\x5c' then '/' else c) = c :=
    fun c member => if_neg fun backslash : c = '\x5c' => straight (backslash ▸ member)
  rw [slashed, List.map_congr_left kept, List.map_id']

theorem lead_root (path : Text) (rest : List Text) (cut : Text.pieces '/' path = [] :: rest) (more : rest ≠ []) :
    lead path = ([.root], rest) := by
  obtain ⟨piece, others, rfl⟩ := List.exists_cons_of_ne_nil more
  simp [lead, cut]

theorem lead_current (path : Text) (rest : List Text) (cut : Text.pieces '/' path = ['.'] :: rest) :
    lead path = ([.current], rest) := by
  simp [lead, cut]

theorem lead_named (path first : Text) (rest : List Text) (cut : Text.pieces '/' path = first :: rest)
    (named : first ≠ []) (notHere : first ≠ ['.']) : lead path = ([], first :: rest) := by
  simp [lead, cut, named, notHere]

theorem is_silent_iff (piece : Text) : isSilent piece = true ↔ piece = [] ∨ piece = ['.'] := by
  simp [isSilent]

theorem body_components_quiet (piece : Text) (rest : List Text) (silent : isSilent piece = true) :
    bodyComponents (piece :: rest) = bodyComponents rest := by
  rw [bodyComponents, List.filter_cons_of_neg (by simp [silent]), bodyComponents]

theorem body_components_cons (piece : Text) (rest : List Text) (speaks : ¬ isSilent piece = true) :
    bodyComponents (piece :: rest) = .ofPiece piece :: bodyComponents rest := by
  rw [bodyComponents, List.filter_cons_of_pos (by simp [speaks]), List.map_cons, bodyComponents]

theorem body_components_append (a b : List Text) :
    bodyComponents (a ++ b) = bodyComponents a ++ bodyComponents b := by
  simp [bodyComponents]

theorem body_components_silent (pieces : List Text) : bodyComponents (pieces ++ [[]]) = bodyComponents pieces := by
  rw [body_components_append]
  exact List.append_nil _

theorem lead_join (directory : Text) (nonempty : directory ≠ []) (path : Text) (relative : isAbsolute path = false) :
    ∃ front, lead (join directory path) = ((lead directory).1, front ++ Text.pieces '/' path) ∧
      bodyComponents (lead directory).2 = bodyComponents front := by
  obtain ⟨front, below, whole⟩ := pieces_join directory
  have cut := below _ relative
  have notOnly : Text.pieces '/' directory ≠ [[]] := by
    intro only
    have joined := Text.joined_pieces '/' directory
    rw [only] at joined
    exact nonempty joined.symm
  obtain ⟨first, rest, rfl⟩ : ∃ first rest, front = first :: rest := by
    cases front with
    | nil => exact absurd (whole nonempty) (by simp [notOnly, Text.pieces_ne_nil])
    | cons first rest => exact ⟨first, rest, rfl⟩
  by_cases root : first = []
  · subst root
    refine ⟨rest, ?_⟩
    rw [lead_root _ (rest ++ Text.pieces '/' path) cut (by simp [Text.pieces_ne_nil])]
    rcases whole nonempty with same | silent
    · rw [lead_root _ rest same (fun none => notOnly (by rw [same, none]))]
      exact ⟨rfl, rfl⟩
    · rw [lead_root _ (rest ++ [[]]) silent (by simp)]
      exact ⟨rfl, body_components_silent _⟩
  · by_cases here : first = ['.']
    · subst here
      refine ⟨rest, ?_⟩
      rw [lead_current _ (rest ++ Text.pieces '/' path) cut]
      rcases whole nonempty with same | silent
      · rw [lead_current _ rest same]
        exact ⟨rfl, rfl⟩
      · rw [lead_current _ (rest ++ [[]]) silent]
        exact ⟨rfl, body_components_silent _⟩
    · refine ⟨first :: rest, ?_⟩
      rw [lead_named _ first (rest ++ Text.pieces '/' path) cut root here]
      rcases whole nonempty with same | silent
      · rw [lead_named _ first rest same root here]
        exact ⟨rfl, rfl⟩
      · rw [lead_named _ first (rest ++ [[]]) silent root here]
        exact ⟨rfl, body_components_silent (first :: rest)⟩

theorem lead_below (directory : Text) (nonempty : directory ≠ []) (names : List Text) (way : IsWay names) :
    ∃ front, lead (withSlash directory ++ Text.joined ['/'] names) = ((lead directory).1, front ++ names) ∧
      bodyComponents (lead directory).2 = bodyComponents front := by
  have relative := relative_of_names names way
  obtain ⟨front, whole, body⟩ := lead_join directory nonempty _ relative
  rw [join_relative _ _ relative, pieces_names names way] at whole
  exact ⟨front, whole, body⟩

theorem components_join (directory : Text) (nonempty : directory ≠ []) (path : Text)
    (relative : isAbsolute path = false) :
    components (join directory path) = components directory ++ bodyComponents (Text.pieces '/' path) := by
  obtain ⟨front, whole, body⟩ := lead_join directory nonempty path relative
  rw [components, components, whole, body, body_components_append, List.append_assoc]

theorem component_of_name (name : Text) (isName : IsName name) :
    isSilent name = false ∧ Component.ofPiece name = .name name := by
  obtain ⟨nonempty, notHere, notAbove, -⟩ := isName
  simp [isSilent, Component.ofPiece, nonempty, notHere, notAbove]

theorem body_components_names (names : List Text) (valid : ∀ name ∈ names, IsName name) :
    bodyComponents names = names.map .name := by
  induction names with
  | nil => rfl
  | cons name rest ih =>
      obtain ⟨speaks, component⟩ := component_of_name name (valid name List.mem_cons_self)
      have behind := ih fun other later => valid other (List.mem_cons_of_mem _ later)
      simp only [bodyComponents] at behind
      simp [bodyComponents, speaks, component, behind]

-- What is left behind the components of the front: the silent pieces at its end, and what follows.
theorem after_components_append (front behind : List Text) :
    ∃ silent, afterComponents (bodyComponents front) (front ++ behind) = some (silent ++ behind) ∧
      ∀ piece ∈ silent, isSilent piece = true := by
  induction front with
  | nil => exact ⟨[], by simp [bodyComponents, afterComponents], by simp⟩
  | cons piece rest ih =>
      obtain ⟨left, after, silent⟩ := ih
      by_cases quiet : isSilent piece = true
      · have same : bodyComponents (piece :: rest) = bodyComponents rest := by simp [bodyComponents, quiet]
        rw [same]
        cases components : bodyComponents rest with
        | nil =>
            refine ⟨piece :: rest, rfl, ?_⟩
            simp only [bodyComponents, List.map_eq_nil_iff, List.filter_eq_nil_iff] at components
            simpa [quiet] using components
        | cons component others =>
            refine ⟨left, ?_, silent⟩
            rw [← after, components, List.cons_append, afterComponents, if_pos quiet]
      · refine ⟨left, ?_, silent⟩
        rw [← after]
        simp [bodyComponents, quiet, afterComponents]

theorem trim_silent_names (silent names : List Text) (quiet : ∀ piece ∈ silent, isSilent piece = true)
    (valid : ∀ name ∈ names, IsName name) : trimSilent (silent ++ names) = names := by
  have speaks (name : Text) (member : name ∈ names) : isSilent name = false :=
    (component_of_name name (valid name member)).1
  have front : (silent ++ names).dropWhile isSilent = names := by
    rw [List.dropWhile_append_of_pos quiet]
    cases names with
    | nil => rfl
    | cons name rest => rw [List.dropWhile_cons_of_neg (by simp [speaks name List.mem_cons_self])]
  have back : names.reverse.dropWhile isSilent = names.reverse := by
    cases last : names.reverse with
    | nil => rfl
    | cons name rest =>
        have member : name ∈ names := List.mem_reverse.mp (last ▸ List.mem_cons_self)
        rw [List.dropWhile_cons_of_neg (by simp [speaks name member])]
  rw [trimSilent, front, back, List.reverse_reverse]

section Below

variable (directory : Text) (nonempty : directory ≠ []) (names : List Text) (way : IsWay names)
include nonempty way

theorem shown_names :
    shown directory (withSlash directory ++ Text.joined ['/'] names) = Text.joined ['/'] names := by
  obtain ⟨front, whole, body⟩ := lead_below directory nonempty names way
  obtain ⟨silent, after, quiet⟩ := after_components_append front names
  simp only [shown, below, whole, body, after, Option.map_some, trim_silent_names silent names quiet way.valid]
  simp [nonempty]

theorem components_names :
    components (withSlash directory ++ Text.joined ['/'] names) =
      components directory ++ names.map Component.name := by
  have relative := relative_of_names names way
  rw [← join_relative _ _ relative, components_join directory nonempty _ relative, pieces_names names way,
    body_components_names names way.valid]

end Below

end Path

end BlockSearch
