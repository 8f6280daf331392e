import BlockSearch.Discovery.Plan
import BlockSearch.Proofs.FileTree.Following

set_option autoImplicit false

namespace BlockSearch

namespace Path

theorem undotted_plain (path : Text) (plain : ['.'] ∉ Text.pieces '/' path) : undotted path = path := by
  rcases undotted_cases path with dotted | same
  · refine absurd ?_ plain
    rw [dotted]
    exact Text.pieces_append '/' ['.'] (undotted path) ▸ List.mem_cons_self
  · exact same.symm

theorem undotted_last (path : Text) (nonempty : path ≠ []) (last : path.getLast? ≠ some '/') :
    undotted path ≠ [] ∧ (undotted path).getLast? ≠ some '/' := by
  rcases undotted_cases path with dotted | same
  · have innerSome : undotted path ≠ [] := by
      intro none
      rw [dotted, none] at last
      exact last rfl
    have ends := List.getLast?_append_of_ne_nil ['.', '/'] innerSome
    rw [dotted] at last
    exact ⟨innerSome, ends ▸ last⟩
  · rw [← same]
    exact ⟨nonempty, last⟩

theorem undotted_special (path : Text) : FilePattern.hasGlobChars (undotted path) = FilePattern.hasGlobChars path := by
  rcases undotted_cases path with dotted | same
  · conv_rhs => rw [dotted]
    rfl
  · rw [← same]

theorem undotted_append (path more : Text) (some : path ≠ []) (notHere : path ≠ ['.']) :
    undotted (path ++ more) = undotted path ++ more := by
  match path with
  | [] => exact absurd rfl some
  | [c] =>
      have other : '.' ≠ c := fun same => notHere (by rw [same])
      simp [undotted, Text.afterLead, other]
  | c :: d :: rest =>
      by_cases dotted : c = '.' ∧ d = '/'
      · obtain ⟨rfl, rfl⟩ := dotted
        rfl
      · have none : ∀ behind : Text, Text.afterLead ['.', '/'] (c :: d :: behind) = Option.none := by
          intro behind
          by_cases dot : '.' = c
          · have slash : '/' ≠ d := fun same => dotted ⟨dot.symm, same.symm⟩
            simp [Text.afterLead, slash]
          · simp [Text.afterLead, dot]
        simp [undotted, none]

end Path

namespace Glob

theorem read_glob_iff (source : Text) (glob : Glob) :
    Plan.readGlob source = .ok glob ↔
      ∃ last, readAll Plan.dialect 0 .start source = .ok last ∧ last.inBraces = false ∧
        glob = ⟨source, last.level.current.reverse⟩ := by
  rw [Plan.readGlob, Glob.read]
  cases readAll Plan.dialect 0 .start source with
  | error cause => simp
  | ok last =>
      dsimp only
      cases braces : last.inBraces with
      | true => simp [braces]
      | false =>
          constructor
          · intro same
            exact ⟨last, rfl, braces, (Except.ok.inj same).symm⟩
          · rintro ⟨_, same, -, rfl⟩
            cases same
            rfl

theorem read_glob_of (source : Text) (state : State) (read : readAll Plan.dialect 0 .start source = .ok state)
    (closed : state.outer = []) : Plan.readGlob source = .ok ⟨source, state.level.current.reverse⟩ :=
  (read_glob_iff source _).mpr ⟨state, read, by rw [State.inBraces, closed]; rfl, rfl⟩

end Glob

namespace Plan

theorem gather_single {α β : Type} (f : α → Except GlobFault (Option β)) (item : α) :
    gather f [item] = (f item).map Option.toList := by
  simp only [gather]
  cases f item with
  | error fault => rfl
  | ok made => simp [Except.map]

theorem gather_mem_iff {α β : Type} (f : α → Except GlobFault (Option β)) (items : List α) (made : List β)
    (gathered : gather f items = .ok made) (x : β) : x ∈ made ↔ ∃ item ∈ items, f item = .ok (some x) := by
  induction items generalizing made with
  | nil =>
      cases gathered
      simp
  | cons first rest ih =>
      rw [gather] at gathered
      cases given : f first with
      | error fault =>
          rw [given] at gathered
          cases gathered
      | ok item =>
          cases behind : gather f rest with
          | error fault =>
              rw [given, behind] at gathered
              cases gathered
          | ok others =>
              rw [given, behind] at gathered
              cases gathered
              simp only [List.mem_append, Option.mem_toList, ih others behind, List.exists_mem_cons_iff, given,
                Except.ok.injEq]

theorem gather_member {α β : Type} (f : α → Except GlobFault (Option β)) (items : List α) (made : List β) (item : α)
    (x : β) (gathered : gather f items = .ok made) (member : item ∈ items) (gives : f item = .ok (some x)) :
    x ∈ made := (gather_mem_iff f items made gathered x).mpr ⟨item, member, gives⟩

theorem gather_source {α β : Type} (f : α → Except GlobFault (Option β)) (items : List α) (made : List β)
    (gathered : gather f items = .ok made) (x : β) (member : x ∈ made) : ∃ item ∈ items, f item = .ok (some x) :=
  (gather_mem_iff f items made gathered x).mp member

theorem gather_ok_iff {α β : Type} (f : α → Except GlobFault (Option β)) (items : List α) :
    (∃ made, gather f items = .ok made) ↔ ∀ item ∈ items, ∃ made, f item = .ok made := by
  induction items with
  | nil => simp [gather]
  | cons first rest ih =>
      simp only [gather, List.forall_mem_cons, ← ih]
      cases f first with
      | error fault => simp
      | ok given => cases gather f rest <;> simp

theorem make_root (tree : FileTree) (root : Text) (patterns fragments : List Text) (plan : Plan)
    (made : make tree root patterns fragments = .ok plan) :
    plan.root = root ∧ gather (target tree root) patterns = .ok plan.targets := by
  unfold make at made
  split at made
  · simp at made
  · split at made
    · simp at made
    · rename_i targets gathered
      simp only [Except.ok.injEq] at made
      rw [← made]
      exact ⟨rfl, gathered⟩

theorem make_exclusions (tree : FileTree) (root : Text) (patterns fragments : List Text) (plan : Plan)
    (made : make tree root patterns fragments = .ok plan) :
    ∃ exclusions, gather exclusionGlobs fragments = .ok exclusions ∧ plan.excluded = exclusions.map Prod.fst ∧
      plan.pruned = exclusions.filterMap Prod.snd := by
  unfold make at made
  split at made
  · cases made
  · rename_i exclusions gathered
    split at made
    · cases made
    · cases made
      exact ⟨exclusions, gathered, rfl, rfl⟩

theorem lead_of_eq (pattern : Text) : leadOf pattern = Text.terminated '/' (literalSegments pattern) := rfl

theorem lead_cases (pattern : Text) :
    (literalSegments pattern = [] ∧ leadOf pattern = []) ∨ ∃ front, leadOf pattern = front ++ ['/'] := by
  rw [lead_of_eq]
  rcases List.eq_nil_or_concat (literalSegments pattern) with none | ⟨front, last, some⟩
  · exact .inl ⟨none, by rw [none]; rfl⟩
  · refine .inr ⟨Text.terminated '/' front ++ last, ?_⟩
    simp [some, Text.terminated]

theorem of_given {α : Type} (result : Except GlobFault Plan) (view : Plan → α) (given : α)
    (evaluated : result.toOption.map view = some given) : ∃ plan, result = .ok plan ∧ view plan = given := by
  cases result with
  | error fault => cases evaluated
  | ok plan => exact ⟨plan, rfl, Option.some.inj evaluated⟩

theorem widened_eq (directory : Text) (last : directory.getLast? ≠ some '/') :
    widened directory = directory ++ '/' :: FilePattern.recursiveFiles := by
  have kept : Text.dropEndWhile (· == '/') directory = directory := by
    rw [← List.head?_reverse] at last
    unfold Text.dropEndWhile
    cases ends : directory.reverse with
    | nil => simpa using ends.symm
    | cons c front =>
        have other : c ≠ '/' := by
          intro same
          simp [ends, same] at last
        rw [List.dropWhile_cons_of_neg (by simpa using other), ← ends, List.reverse_reverse]
  rw [widened, kept, List.append_assoc]
  rfl

end Plan

end BlockSearch
