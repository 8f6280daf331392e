import BlockSearch.Engine
import BlockSearch.Proofs.Symbol.Cache

set_option autoImplicit false

namespace BlockSearch.Engine

inductive Reachable (settings : Settings) (refuses : Symbol.Refusal) : Engine → Prop where
  | fresh : Reachable settings refuses (ofSettings settings refuses)
  | search (engine : Engine) (tree : FileTree) (cancelled : Bool) (request : Request)
      (before : Reachable settings refuses engine) :
      Reachable settings refuses (engine.search tree cancelled request).2

-- What calls leave as it was: the settings, what is refused, and that the patterns are those that would be made.
structure Keeps (settings : Settings) (refuses : Symbol.Refusal) (engine : Engine) : Prop where
  settings_eq : engine.settings = settings
  refuses_eq : engine.refuses = refuses
  patterns : Symbol.Cache.Keeps refuses engine.cache

theorem fresh_keeps (settings : Settings) (refuses : Symbol.Refusal) :
    Keeps settings refuses (ofSettings settings refuses) :=
  ⟨rfl, rfl, Symbol.Cache.empty_keeps refuses settings.cacheSize⟩

theorem search_engine (engine : Engine) (tree : FileTree) (cancelled : Bool) (request : Request) :
    (engine.search tree cancelled request).2 = engine ∨
      ∃ symbols, (engine.search tree cancelled request).2 =
        { engine with cache := (engine.cache.prepare engine.refuses symbols).2 } := by
  unfold search
  split
  · exact .inl rfl
  · rename_i symbols valid
    dsimp only
    split
    · exact .inl rfl
    · refine .inr ⟨symbols, ?_⟩
      split
      · rename_i refused
        rw [refused]
      · rename_i prepared
        rw [prepared]
        dsimp only
        split
        · rfl
        · split <;> rfl

variable {settings : Settings} {refuses : Symbol.Refusal} {engine other : Engine}

theorem Keeps.search (keeps : Keeps settings refuses engine) (tree : FileTree) (cancelled : Bool)
    (request : Request) : Keeps settings refuses (engine.search tree cancelled request).2 := by
  rcases search_engine engine tree cancelled request with same | ⟨symbols, prepared⟩
  · rw [same]
    exact keeps
  · obtain ⟨rfl, rfl, patterns⟩ := keeps
    rw [prepared]
    exact ⟨rfl, rfl, patterns.prepare symbols⟩

theorem Reachable.keeps (reachable : Reachable settings refuses engine) : Keeps settings refuses engine := by
  induction reachable with
  | fresh => exact fresh_keeps settings refuses
  | search engine tree cancelled request before ih => exact ih.search tree cancelled request

inductive Call where
  | search (cancelled : Bool) (request : Request)
  | read (request : Request)
deriving DecidableEq, Repr

inductive Answer where
  | outcome (searched : Except SearchError Outcome)
  | text (read : Except SearchError Text)

def answer (engine : Engine) (tree : FileTree) : Call → Answer × Engine
  | .search cancelled request =>
      let searched := engine.search tree cancelled request
      (.outcome searched.1, searched.2)
  | .read request =>
      let read := engine.read tree request
      (.text read.1, read.2)

def afterCalls (engine : Engine) (history : List (FileTree × Call)) : Engine :=
  history.foldl (fun engine call => (engine.answer call.1 call.2).2) engine

theorem Reachable.answer (reachable : Reachable settings refuses engine) (tree : FileTree) (call : Call) :
    Reachable settings refuses (engine.answer tree call).2 := by
  cases call with
  | search cancelled request => exact reachable.search engine tree cancelled request
  | read request => exact reachable.search engine tree false request

theorem Reachable.after (reachable : Reachable settings refuses engine) (history : List (FileTree × Call)) :
    Reachable settings refuses (engine.afterCalls history) := by
  induction history generalizing engine with
  | nil => exact reachable
  | cons call history ih => exact ih (reachable.answer call.1 call.2)

theorem Keeps.search_refused (keeps : Keeps settings refuses engine) (tree : FileTree) (cancelled : Bool)
    (request : Request) (symbols : List Text) (plan : Plan) (reason : Text) (valid : request.symbolSet = .ok symbols)
    (planned : Engine.plan tree settings request.searchPaths = .ok plan) (refused : refuses symbols = some reason) :
    engine.search tree cancelled request = (.error (.pattern (.symbols reason)), engine) := by
  obtain ⟨rfl, rfl, patterns⟩ := keeps
  simp only [Engine.search, valid, planned, patterns.prepare_refused symbols reason refused]

end BlockSearch.Engine
