import BlockSearch.CommandLine.Run
import BlockSearch.Proofs.Json.Record

set_option autoImplicit false

namespace BlockSearch

namespace Request

variable (request : Request)

theorem to_json_proper : Json.IsProper request.toJson := by
  have proper : ∀ member ∈ [Json.member symbolsKey (.array (request.symbols.map Json.text)),
        Json.member pathsKey (.array (request.paths.map Json.text))]
      ++ (request.limit.toList.map fun limit => Json.member limitKey (Json.natural limit))
      ++ [Json.member compactKey (.bool request.compact)], member.1.isSome = true ∧ Json.IsProper member.2 := by
    intro member inside
    simp only [List.cons_append, List.nil_append, List.mem_cons, List.mem_append, List.mem_map, List.not_mem_nil,
      or_false] at inside
    rcases inside with rfl | rfl | ⟨limit, _, rfl⟩ | rfl
    · exact ⟨rfl, Json.texts_proper request.symbols⟩
    · exact ⟨rfl, Json.texts_proper request.paths⟩
    · exact ⟨rfl, Json.natural_proper limit⟩
    · exact ⟨rfl, .bool request.compact⟩
  exact .object _ (fun member inside => (proper member inside).1) fun member inside => (proper member inside).2

theorem put_symbols_paths (symbols paths : List Text) (rest : List (Option Text × Json)) :
    Json.putMembers fields [] blank
        (Json.member symbolsKey (.array (symbols.map Json.text))
          :: Json.member pathsKey (.array (paths.map Json.text)) :: rest) =
      Json.putMembers fields [1, 0] ⟨symbols, paths, none, false⟩ rest := by
  rw [Json.member, Json.put_members_field fields [] blank ⟨symbols, defaultPaths, none, false⟩ symbolsKey _ _ 0 _ rfl
      (by decide) rfl (by simp only [Json.texts_read]; rfl),
    Json.member, Json.put_members_field fields [0] _ ⟨symbols, paths, none, false⟩ pathsKey _ _ 1 _ rfl (by decide) rfl
      (by simp only [Json.texts_read]; rfl)]

theorem put_limit (symbols paths : List Text) (limit : Option Nat) (rest : List (Option Text × Json))
    (fits : ∀ given ∈ limit, given < Decimal.wordLimit) :
    Json.putMembers fields [1, 0] ⟨symbols, paths, none, false⟩
        ((limit.toList.map fun given => Json.member limitKey (Json.natural given)) ++ rest) =
      Json.putMembers fields ((limit.toList.map fun _ => 2) ++ [1, 0]) ⟨symbols, paths, limit, false⟩ rest := by
  cases limit with
  | none => rfl
  | some given =>
      exact Json.put_members_field fields [1, 0] _ _ limitKey _ rest 2 _ rfl (by decide) rfl
        (by simp only [Json.optional_natural_read given (fits given rfl)]; rfl)

theorem put_compact (symbols paths : List Text) (limit : Option Nat) (compact : Bool) (seen : List Nat)
    (fresh : 3 ∉ seen) :
    Json.putMembers fields seen ⟨symbols, paths, limit, false⟩ [Json.member compactKey (.bool compact)] =
      some (3 :: seen, ⟨symbols, paths, limit, compact⟩) := by
  rw [Json.member, Json.put_members_field fields seen _ ⟨symbols, paths, limit, compact⟩ compactKey _ [] 3 _ rfl fresh
    rfl rfl, Json.putMembers]

theorem of_json_to_json (fits : ∀ limit ∈ request.limit, limit < Decimal.wordLimit) :
    ofJson request.toJson = some request := by
  obtain ⟨symbols, paths, limit, compact⟩ := request
  have fresh : 3 ∉ (limit.toList.map fun _ => 2) ++ [1, 0] := by cases limit <;> simp
  have whole : Json.complete fields (3 :: ((limit.toList.map fun _ => 2) ++ [1, 0])) = true := by cases limit <;> rfl
  have put := put_symbols_paths symbols paths
    ((limit.toList.map fun given => Json.member limitKey (Json.natural given))
      ++ [Json.member compactKey (.bool compact)])
  rw [put_limit symbols paths limit _ fits, put_compact symbols paths limit compact _ fresh] at put
  simp only [ofJson, toJson, Json.toRecord, List.cons_append, List.nil_append, put, whole, if_true]

theorem read_written (spacing : Json.Spacing) (gap : Text) (blank : Json.IsGap gap)
    (fits : ∀ limit ∈ request.limit, limit < Decimal.wordLimit) :
    read (Json.write spacing request.toJson ++ gap) = some request := by
  rw [read, Json.read_written spacing _ gap request.to_json_proper blank, Option.bind_some,
    request.of_json_to_json fits]

end Request

namespace Settings

namespace Key

def name : Key → Text
  | .number key => key.key
  | .switch key => key.key

def copy (settings : Settings) : Key → Settings → Settings
  | .number key, other => key.put other (key.get settings)
  | .switch key, other => key.put other (key.get settings)

theorem name_mem_field (key : Key) : key.name ∈ key.field.names := by
  cases key <;> exact List.mem_cons_self

theorem names_of_field (key : Key) (other : Text) (named : other ∈ key.field.names) : other = key.name := by
  cases key <;> exact List.mem_singleton.mp named

theorem field_optional (key : Key) : key.field.required = false := by
  cases key <;> rfl

theorem member_named (settings : Settings) (key : Key) :
    key.member settings = (some key.name, (key.member settings).2) := by
  cases key <;> rfl

theorem member_proper (settings : Settings) (key : Key) : Json.IsProper (key.member settings).2 := by
  cases key with
  | number key => exact Json.natural_proper (key.get settings)
  | switch key => exact .bool (key.get settings)

theorem put_member (settings other : Settings) (key : Key)
    (fits : ∀ number, key = .number number → number.get settings < Decimal.wordLimit) :
    key.field.put other (key.member settings).2 = some (key.copy settings other) := by
  cases key with
  | number key =>
      simp only [field, member, Json.member, Json.natural_read _ (fits key rfl), Option.map_some, copy]
  | switch key => rfl

end Key

variable (settings : Settings)

theorem to_json_proper : Json.IsProper settings.toJson := by
  refine .object _ (fun member inside => ?_) fun member inside => ?_
  · obtain ⟨key, _, rfl⟩ := List.mem_map.mp inside
    rw [key.member_named]
    rfl
  · obtain ⟨key, _, rfl⟩ := List.mem_map.mp inside
    exact key.member_proper settings

-- Every key is copied, whatever settings the keys before it have left.
theorem put_members_keys (before later : List Key) (distinct : ((before ++ later).map Key.name).Nodup)
    (fits : ∀ number, Key.number number ∈ later → number.get settings < Decimal.wordLimit)
    (seen : List Nat) (old : ∀ index ∈ seen, index < before.length) (record : Settings) :
    ∃ after, Json.putMembers ((before ++ later).map Key.field) seen record (later.map (Key.member settings)) =
      some (after, later.foldl (fun other key => key.copy settings other) record) := by
  induction later generalizing before seen record with
  | nil => exact ⟨seen, rfl⟩
  | cons key later ih =>
      have other : ∀ earlier ∈ before.map Key.field, key.name ∉ earlier.names := by
        intro earlier inside named
        obtain ⟨first, member, rfl⟩ := List.mem_map.mp inside
        rw [List.map_append, List.nodup_append] at distinct
        exact distinct.2.2 first.name (List.mem_map_of_mem member) key.name (by simp) (first.names_of_field _ named).symm
      have known : Json.fieldOf ((before ++ key :: later).map Key.field) key.name = some before.length := by
        rw [List.map_append, List.map_cons]
        simpa using Json.field_of_append (before.map Key.field) (later.map Key.field) key.field key.name other
          key.name_mem_field
      have placed : ((before ++ key :: later).map Key.field)[before.length]? = some key.field := by simp
      have next := ih (before ++ [key]) (by simpa using distinct)
        (fun number member => fits number (List.mem_cons_of_mem _ member)) (before.length :: seen)
        (by
          intro index member
          rcases List.mem_cons.mp member with rfl | earlier
          · simp
          · have := old index earlier
            simp only [List.length_append, List.length_singleton]
            omega)
        (key.copy settings record)
      rw [List.map_cons, key.member_named settings,
        Json.put_members_field _ seen record (key.copy settings record) key.name _ _ before.length key.field known
          (fun member => absurd (old _ member) (Nat.lt_irrefl _)) placed
          (key.put_member settings record fun number same => fits number (same ▸ List.mem_cons_self))]
      simpa using next

theorem copy_all (root : Text) :
    keys.foldl (fun other key => key.copy settings other) (initial root) = { settings with root := root } := rfl

theorem of_json_to_json (root : Text)
    (fits : ∀ number, Key.number number ∈ keys → number.get settings < Decimal.wordLimit) :
    ofJson root settings.toJson = some { settings with root := root } := by
  have distinct : (keys.map Key.name).Nodup := by decide
  obtain ⟨after, put⟩ := put_members_keys settings [] keys distinct fits [] (by simp) (initial root)
  have whole : Json.complete (keys.map Key.field) after = true := by
    refine Json.complete_optional _ after fun field member => ?_
    obtain ⟨key, _, rfl⟩ := List.mem_map.mp member
    exact key.field_optional
  rw [List.nil_append, copy_all] at put
  simp only [ofJson, toJson, Json.toRecord, put, whole, if_true]

theorem read_written (root gap : Text) (blank : Json.IsGap gap)
    (fits : ∀ number, Key.number number ∈ keys → number.get settings < Decimal.wordLimit) :
    read root (settings.write ++ gap) = some { settings with root := root } := by
  rw [read, write, Json.read_written _ _ gap settings.to_json_proper blank, Option.bind_some,
    settings.of_json_to_json root fits]

end Settings

namespace FileTree

theorem decode_utf8 (text : Text) : decode text.utf8 = some text := by
  have bytes : (⟨text.utf8.toArray⟩ : ByteArray) = (String.ofList text).toByteArray := by
    rw [String.toByteArray_ofList, List.utf8Encode]
    ext1
    simp [Text.utf8]
  rw [decode, bytes, String.fromUTF8?, dif_pos (String.ofList text).isValidUTF8]
  exact congrArg some String.toList_ofList

theorem text_of_file (tree : FileTree) (path text : Text) (file : tree.file? path = some text.utf8) :
    tree.text? path = some text := by
  rw [text?, file, Option.bind_some, decode_utf8]

theorem file_is_found (tree : FileTree) (path : Text) (bytes : Bytes) (file : tree.file? path = some bytes) :
    (tree.find? path).isSome = true := by
  rw [file?] at file
  split at file
  · rename_i found
    rw [found]
    rfl
  · cases file

end FileTree

namespace CommandLine

theorem stored_settings_of_file (world : World) (path text : Text) (settings : Settings)
    (placed : settingsPath world.environment = some path) (file : world.tree.file? path = some text.utf8)
    (read : Settings.read world.tree.workingDirectory text = some settings) : storedSettings world = .ok settings := by
  have found := world.tree.file_is_found path _ file
  simp only [storedSettings, placed, Option.filter, found, if_true, world.tree.text_of_file path text file, read]

-- A request, on one line or on many, and the settings that `config` shows, in the settings file of any later run.
theorem encodings_read_back :
    (∀ (request : Request) (spacing : Json.Spacing), (∀ limit ∈ request.limit, limit < Decimal.wordLimit) →
      Request.read (Json.write spacing request.toJson) = some request) ∧
    ∀ settings : Settings,
      (∀ number, Settings.Key.number number ∈ Settings.keys → number.get settings < Decimal.wordLimit) →
      ∀ (refuses : Symbol.Refusal) (world : World) (coloured : Bool),
        ∃ output, execute refuses world settings coloured .settings = .ok output ∧
        (∀ root, Settings.read root output = some { settings with root := root }) ∧
        ∀ (later : World) (path : Text), settingsPath later.environment = some path →
          later.tree.file? path = some output.utf8 →
          storedSettings later = .ok { settings with root := later.tree.workingDirectory } := by
  refine ⟨fun request spacing fits => ?_, fun settings fits refuses world coloured => ?_⟩
  · have read := request.read_written spacing [] Json.no_gap fits
    rwa [List.append_nil] at read
  · refine ⟨settings.write ++ ['\n'], rfl, fun root => settings.read_written root _ Json.newline_gap fits, ?_⟩
    intro later path placed file
    exact stored_settings_of_file later path _ _ placed file (settings.read_written _ _ Json.newline_gap fits)

-- Quotes, a backslash, control characters, a character beyond the first plane, and the largest numbers.
theorem encodings_read_back_extremes :
    let request : Request :=
      ⟨["\x22\x5c\x00\x1f\x7f".toList, "𝔊et/é".toList], [[], ['\n']], some 18446744073709551615, true⟩
    let settings : Settings :=
      { Settings.initial ['/'] with cacheSize := 18446744073709551615, workers := 0, debug := true }
    let directory : Directory := Directory.insertAt (.file (settings.write ++ ['\n']).utf8)
      ["h".toList, ".config".toList, "symscan".toList, "config.json".toList] .empty
    let later : World :=
      ⟨⟨directory, "/h".toList⟩, fun name => if name = "HOME".toList then some "/h".toList else none, []⟩
    Request.read request.write = some request ∧
      storedSettings later = .ok { settings with root := "/h".toList } := by
  intro request settings directory later
  have words : ∀ number, Settings.Key.number number ∈ Settings.keys → number.get settings < Decimal.wordLimit := by
    intro number member
    simp only [Settings.keys, List.mem_cons, Settings.Key.number.injEq, List.not_mem_nil, or_false, reduceCtorEq,
      false_or] at member
    rcases member with rfl | rfl | rfl | rfl | rfl | rfl | rfl | rfl | rfl <;> decide +kernel
  obtain ⟨requests, stored⟩ := encodings_read_back
  refine ⟨requests request .dense (by rintro _ ⟨⟩; decide), ?_⟩
  obtain ⟨output, printed, _, reread⟩ := stored settings words .never later false
  cases printed
  exact reread later "/h/.config/symscan/config.json".toList (by decide +kernel) rfl

end CommandLine

end BlockSearch
