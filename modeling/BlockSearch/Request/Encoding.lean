import BlockSearch.Json.Record
import BlockSearch.Request.Basic

set_option autoImplicit false

namespace BlockSearch.Request

def symbolsKey : Text := "symbols".toList

def pathsKey : Text := "file_paths".toList

def filesKey : Text := "files".toList

def limitKey : Text := "limit".toList

def compactKey : Text := "compact".toList

def fields : List (Json.Field Request) :=
  [⟨[symbolsKey], true, fun request value => value.toTexts.map fun symbols => { request with symbols := symbols }⟩,
   ⟨[pathsKey, filesKey], false, fun request value => value.toTexts.map fun paths => { request with paths := paths }⟩,
   ⟨[limitKey], false, fun request value =>
     value.toOptionalNatural.map fun limit => { request with limit := limit }⟩,
   ⟨[compactKey], false, fun request value => value.toBool.map fun compact => { request with compact := compact }⟩]

def blank : Request := ⟨[], defaultPaths, none, false⟩

def ofJson (json : Json) : Option Request := json.toRecord fields blank

def toJson (request : Request) : Json :=
  .object
    ([Json.member symbolsKey (.array (request.symbols.map Json.text)),
      Json.member pathsKey (.array (request.paths.map Json.text))]
      ++ (request.limit.toList.map fun limit => Json.member limitKey (Json.natural limit))
      ++ [Json.member compactKey (.bool request.compact)])

def read (text : Text) : Option Request := (Json.read text).bind ofJson

def write (request : Request) : Text := Json.write .dense request.toJson

end BlockSearch.Request
