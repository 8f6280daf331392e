import BlockSearch.FilePattern.Completion
import BlockSearch.Report.Plain
import BlockSearch.Request.Basic
import BlockSearch.Scan.Collection
import BlockSearch.Settings.Basic
import BlockSearch.Symbol.Cache

/-!
A search from the request to the blocks that are shown. The engine keeps its patterns for later searches; they change
nothing about what is found.
-/

set_option autoImplicit false

namespace BlockSearch

inductive PatternFault where
  | paths (fault : GlobFault)
  | symbols (reason : Text)
deriving DecidableEq, Repr

instance : Coe GlobFault PatternFault := ⟨.paths⟩

def PatternFault.message : PatternFault → Text
  | .paths fault => "Invalid file pattern: ".toList ++ fault.message
  | .symbols reason => "Failed to compile symbol pattern: ".toList ++ reason

inductive SearchError where
  | notFound (symbols paths : List Text)
  | invalid (error : RequestError)
  | pattern (fault : PatternFault)
  | walk (fault : WalkFault)
deriving DecidableEq, Repr

def SearchError.message : SearchError → Text
  | .notFound symbols paths =>
      "No symbols found for ".toList ++ Text.joined ", ".toList symbols ++ " in ".toList
        ++ Text.joined ", ".toList paths
  | .invalid error => "Invalid request: ".toList ++ error.message
  | .pattern fault => fault.message
  | .walk fault => "Failed to enumerate files: ".toList ++ fault.message

structure Engine where
  settings : Settings
  refuses : Symbol.Refusal
  cache : Symbol.Cache

namespace Engine

def ofSettings (settings : Settings) (refuses : Symbol.Refusal := .never) : Engine :=
  ⟨settings, refuses, Symbol.Cache.empty settings.cacheSize⟩

def walkLimits (settings : Settings) : WalkLimits :=
  ⟨settings.maxDepth, settings.maxFileSize, settings.respectIgnoreFiles⟩

def plan (tree : FileTree) (settings : Settings) (paths : List Text) : Except GlobFault Plan :=
  Plan.make tree settings.root (paths.map FilePattern.complete) (Exclusion.fragments paths)

def collect (tree : FileTree) (settings : Settings) (cancelled : Bool) (pattern : Symbol.Pattern)
    (symbolCount : Nat) (plan : Plan) : Except WalkFault Collection :=
  let matcher : Matcher := ⟨pattern, settings.limits⟩
  let budget := Budget.start settings.maxFiles (settings.maxFindings symbolCount) cancelled
  let stream := FileStream.start settings.workers (plan.discover tree (walkLimits settings))
  (Collection.empty.drain (matcher.scan tree) budget stream).1

def search (engine : Engine) (tree : FileTree) (cancelled : Bool) (request : Request) :
    Except SearchError Outcome × Engine :=
  match request.symbolSet with
  | .error error => (.error (.invalid error), engine)
  | .ok symbols =>
      let paths := request.searchPaths
      match plan tree engine.settings paths with
      | .error fault => (.error (.pattern fault), engine)
      | .ok plan =>
          match engine.cache.prepare engine.refuses symbols with
          | (.error reason, cache) => (.error (.pattern (.symbols reason)), { engine with cache := cache })
          | (.ok prepared, cache) =>
              let after := { engine with cache := cache }
              match collect tree engine.settings cancelled prepared.pattern symbols.length plan with
              | .error fault => (.error (.walk fault), after)
              | .ok collection =>
                  if collection.findings.isEmpty then (.error (.notFound symbols paths), after)
                  else
                    let best := Finding.best (request.shownLimit engine.settings.defaultLimit) collection.findings
                    (.ok ⟨symbols, best.1, best.2, collection.filesScanned⟩, after)

def read (engine : Engine) (tree : FileTree) (request : Request) : Except SearchError Text × Engine :=
  let searched := engine.search tree false request
  (searched.1.map (Report.text ⟨engine.settings.debug, request.compact⟩), searched.2)

end Engine

end BlockSearch
