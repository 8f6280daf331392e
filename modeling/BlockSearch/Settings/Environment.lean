import BlockSearch.Settings.Basic

set_option autoImplicit false

namespace BlockSearch.Settings

def rootVariable : Text := "WORKSPACE_FOLDER_PATHS".toList

def debugVariable : Text := "DEBUG".toList

def workersVariable : Text := "SYMSCAN_POOL_WIDTH".toList

def withFolders (settings : Settings) : Option Text → Settings
  | none => settings
  | some folders =>
      match ((Text.pieces ',' folders).map Text.trim).find? fun folder => !folder.isEmpty with
      | some folder => { settings with root := folder }
      | none => settings

def withDebug (settings : Settings) : Option Text → Settings
  | none => settings
  | some value => { settings with debug := value == "true".toList }

def withWorkers (settings : Settings) (value : Option Text) : Settings :=
  match value.bind Decimal.word? with
  | some workers => if 0 < workers then { settings with workers := workers } else settings
  | none => settings

def withEnvironment (settings : Settings) (lookup : Text → Option Text) : Settings :=
  ((settings.withFolders (lookup rootVariable)).withDebug (lookup debugVariable)).withWorkers (lookup workersVariable)

end BlockSearch.Settings
