import BlockSearch.Json.Record
import BlockSearch.Settings.Basic

set_option autoImplicit false

namespace BlockSearch.Settings

structure NumberKey where
  key : Text
  get : Settings → Nat
  put : Settings → Nat → Settings

structure SwitchKey where
  key : Text
  get : Settings → Bool
  put : Settings → Bool → Settings

inductive Key where
  | number (key : NumberKey)
  | switch (key : SwitchKey)

namespace Key

def field : Key → Json.Field Settings
  | .number key => ⟨[key.key], false, fun settings value => value.toNatural.map (key.put settings)⟩
  | .switch key => ⟨[key.key], false, fun settings value => value.toBool.map (key.put settings)⟩

def member (settings : Settings) : Key → Option Text × Json
  | .number key => Json.member key.key (Json.natural (key.get settings))
  | .switch key => Json.member key.key (.bool (key.get settings))

end Key

def keys : List Key :=
  [.number ⟨"pool_width".toList, workers, fun s n => { s with workers := n }⟩,
   .number ⟨"max_files".toList, maxFiles, fun s n => { s with maxFiles := n }⟩,
   .number ⟨"max_file_size".toList, maxFileSize, fun s n => { s with maxFileSize := n }⟩,
   .number ⟨"max_depth".toList, maxDepth, fun s n => { s with maxDepth := n }⟩,
   .number ⟨"max_matches_per_symbol".toList, maxFindingsPerSymbol, fun s n => { s with maxFindingsPerSymbol := n }⟩,
   .number ⟨"max_block_bytes".toList, maxBlockSize, fun s n => { s with maxBlockSize := n }⟩,
   .number ⟨"max_symbol_offset".toList, maxColumn, fun s n => { s with maxColumn := n }⟩,
   .number ⟨"default_limit".toList, defaultLimit, fun s n => { s with defaultLimit := n }⟩,
   .switch ⟨"respect_gitignore".toList, respectIgnoreFiles, fun s b => { s with respectIgnoreFiles := b }⟩,
   .number ⟨"regex_cache_size".toList, cacheSize, fun s n => { s with cacheSize := n }⟩,
   .switch ⟨"debug".toList, Settings.debug, fun s b => { s with debug := b }⟩]

def ofJson (root : Text) (json : Json) : Option Settings := json.toRecord (keys.map Key.field) (initial root)

def toJson (settings : Settings) : Json := .object (keys.map (Key.member settings))

def read (root text : Text) : Option Settings := (Json.read text).bind (ofJson root)

def write (settings : Settings) : Text := Json.write (.lines 0) settings.toJson

end BlockSearch.Settings
