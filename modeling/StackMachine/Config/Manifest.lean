import StackMachine.Config.Disk
import StackMachine.Diagnostics
import StackMachine.Text.Decimal
import StackMachine.Text.Quoted

/-! Manifests: the settings of a project, kept in a file of a fixed name that is looked for in a
directory and those above it. How the text of the file gives settings is left open. -/
namespace StackMachine.Config

/-- An output stream. -/
inductive Stream where
  | stdout
  | stderr
deriving DecidableEq

/-- The name of a stream. -/
def Stream.name : Stream → Bytes
  | .stdout => utf8 "stdout"
  | .stderr => utf8 "stderr"

/-- The settings as a file gives them. -/
structure Settings where
  entry : Bytes := []
  debug : Bool := false
  maxSteps : Int64 := 0
  diagnostics : Bytes := []
  port : Int64 := 0
  verbosity : Int64 := 0
  logFile : Bytes := []
deriving DecidableEq

/-- A reader of settings: it gives them for a text, or says what is wrong with it. -/
abbrev SettingsReader := Bytes → Except Bytes Settings

/-- The port that the service listens on if none is set. -/
def defaultPort : Int64 := 4580

/-- The settings of a project. `directory` holds the file that they came from. -/
structure Manifest where
  entry : Bytes := []
  debug : Bool := false
  maxSteps : Int64 := 0
  diagnostics : Stream := .stdout
  port : Int64 := defaultPort
  verbosity : Int64 := 0
  logFile : Bytes := []
  directory : Bytes := []
deriving DecidableEq

/-- Why a file gives no manifest. -/
inductive ManifestFault where
  | unreadable (path why : Bytes)
  | malformed (path why : Bytes)
  | unknownStream (path name : Bytes)
  | negativeBudget (path : Bytes) (maxSteps : Int64)
deriving DecidableEq

/-- The wording of a fault. -/
def ManifestFault.message : ManifestFault → Bytes
  | .unreadable path why => utf8 "cannot read " ++ path ++ utf8 ": " ++ why
  | .malformed path why => utf8 "parse error in " ++ path ++ utf8 ": " ++ why
  | .unknownStream path name =>
    utf8 "invalid " ++ path ++ utf8 ": vm.diagnostics must be \"stdout\" or \"stderr\", got " ++
      Text.Quoted.quote name
  | .negativeBudget path maxSteps =>
    utf8 "invalid " ++ path ++ utf8 ": vm.max-steps must not be negative, got " ++
      Text.Decimal.ofInt64 maxSteps

namespace Manifest

/-- The name of the file. -/
def fileName : Bytes := utf8 "stackvm.toml"

/-- The stream that a name means; the empty name means standard output. -/
def stream? (name : Bytes) : Option Stream :=
  if name = [] ∨ name = Stream.name .stdout then some .stdout
  else if name = Stream.name .stderr then some .stderr
  else none

/-- The manifest of settings from a file, with defaults for what is not set. -/
def ofSettings (path directory : Bytes) (s : Settings) : Except ManifestFault Manifest :=
  match stream? s.diagnostics with
  | none => .error (.unknownStream path s.diagnostics)
  | some diagnostics =>
    if s.maxSteps < 0 then .error (.negativeBudget path s.maxSteps)
    else
      .ok
        { entry := s.entry
          debug := s.debug
          maxSteps := s.maxSteps
          diagnostics
          port := if s.port = 0 then defaultPort else s.port
          verbosity := s.verbosity
          logFile := s.logFile
          directory }

/-- Loads the manifest in a directory; `base` is where relative paths start. -/
def load (parse : SettingsReader) (disk : Disk) (base directory : Bytes) :
    Except ManifestFault Manifest :=
  let path := Path.join directory fileName
  match disk.read path with
  | .error why => .error (.unreadable path why)
  | .ok text =>
    match parse text with
    | .error why => .error (.malformed path why)
    | .ok settings => ofSettings path (Path.absolute base directory) settings

/-- Loads the manifest in the nearest directory that has one, from a directory upward. -/
def find (parse : SettingsReader) (disk : Disk) (base start : Bytes) :
    Except ManifestFault (Option Manifest) :=
  match (Path.ancestors (Path.absolute base start)).find? fun directory =>
      disk.holds (Path.join directory fileName) with
  | none => .ok none
  | some directory => (load parse disk base directory).map some

/-- The manifest for a run: that of the named directory, or else the nearest one from the base
upward, or else the defaults. -/
def forRun (parse : SettingsReader) (disk : Disk) (base directory : Bytes) :
    Except ManifestFault Manifest :=
  if directory.isEmpty then (find parse disk base Path.here).map fun found => found.getD {}
  else load parse disk base directory

/-- The files that may be looked up for a run. -/
def candidates (base directory : Bytes) : List Bytes :=
  let directories :=
    if directory.isEmpty then Path.ancestors (Path.absolute base Path.here) else [directory]
  directories.map fun d => Path.join d fileName

/-- A path of the manifest from its directory; the empty path means none. -/
def located (m : Manifest) (path : Bytes) : Option Bytes :=
  if path.isEmpty then none
  else if Path.isAbsolute path then some path
  else some (Path.join m.directory path)

/-- The writer that diagnostics go to. -/
def diagnosticsWriter (m : Manifest) : Writer :=
  match m.diagnostics with
  | .stdout => .standard
  | .stderr => .other 2

/-- The program to run when none is given. -/
def entryPath? (m : Manifest) : Option Bytes :=
  m.located m.entry

/-- The file that the log goes to, if it goes to one. -/
def logPath? (m : Manifest) : Option Bytes :=
  m.located m.logFile

end Manifest

end StackMachine.Config
