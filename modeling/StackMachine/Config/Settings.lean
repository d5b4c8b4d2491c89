import StackMachine.Config.Manifest
import StackMachine.Text.Caseless
import StackMachine.Toml.Document

/-! Settings in a document of tables. -/
namespace StackMachine.Config

namespace Settings

open Toml (Table Value)

/-- The field of a table that a key means: the one of that name, or else one that the key
spells in letters of another case. -/
def meant (names : List Bytes) (key : Bytes) : Option Bytes :=
  if names.contains key then some key else names.find? (Text.Caseless.spells key)

/-- Reads the keys of a table one by one; unknown keys are passed over. -/
def readTable (names : List Bytes) (read : Settings → Bytes → Value → Option Settings) :
    Settings → Table → Option Settings
  | s, [] => some s
  | s, (key, value) :: rest =>
    match meant names key with
    | none => readTable names read s rest
    | some name =>
      match read s name value with
      | none => none
      | some s' => readTable names read s' rest

/-- Reads a setting of the program. -/
def readProgram (s : Settings) (_ : Bytes) : Value → Option Settings
  | .text entry => some { s with entry }
  | _ => none

/-- Reads a setting of the machine. -/
def readMachine (s : Settings) (name : Bytes) (value : Value) : Option Settings :=
  if name = utf8 "debug" then
    match value with
    | .bool debug => some { s with debug }
    | _ => none
  else if name = utf8 "max-steps" then
    match value with
    | .integer maxSteps => some { s with maxSteps }
    | _ => none
  else
    match value with
    | .text diagnostics => some { s with diagnostics }
    | _ => none

/-- Reads a setting of the service. -/
def readServer (s : Settings) (_ : Bytes) : Value → Option Settings
  | .integer port => some { s with port }
  | _ => none

/-- Reads a setting of the log. -/
def readLog (s : Settings) (name : Bytes) (value : Value) : Option Settings :=
  if name = utf8 "verbosity" then
    match value with
    | .integer verbosity => some { s with verbosity }
    | _ => none
  else
    match value with
    | .text logFile => some { s with logFile }
    | _ => none

/-- Reads a group of settings. -/
def readGroup (s : Settings) (name : Bytes) : Value → Option Settings
  | .table entries =>
    if name = utf8 "program" then readTable [utf8 "entry"] readProgram s entries
    else if name = utf8 "vm" then
      readTable [utf8 "debug", utf8 "max-steps", utf8 "diagnostics"] readMachine s entries
    else if name = utf8 "server" then readTable [utf8 "port"] readServer s entries
    else readTable [utf8 "verbosity", utf8 "file"] readLog s entries
  | _ => none

/-- The settings in a document. -/
def ofTable (document : Table) : Option Settings :=
  readTable [utf8 "program", utf8 "vm", utf8 "server", utf8 "log"] readGroup {} document

/-- The settings in the text of a document. -/
def parse : SettingsReader := fun text =>
  match (Toml.parse text).bind ofTable with
  | none => .error (utf8 "toml: not a document of settings")
  | some settings => .ok settings

end Settings

end StackMachine.Config
