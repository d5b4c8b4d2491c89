import StackMachine.Config.Manifest
import StackMachine.Shell.Options
import StackMachine.Shell.Run

/-! The command: options, then the manifest, then the job. Options that were given override the
manifest, except that the greater verbosity counts. -/
namespace StackMachine.Shell

open Config (Disk Manifest SettingsReader Stream)

/-- What a command is to do. -/
inductive Job where
  /-- Serve an editor. -/
  | edit
  /-- Serve clients at a port. -/
  | serve (port : Int64)
  /-- Tell how the command is used. -/
  | explain
  /-- Run the program in a file, here or at an address. -/
  | run (path remote : Bytes) (options : RunOptions)
deriving DecidableEq

/-- What a command is to do, and the settings that it goes by. -/
structure Plan where
  manifest : Manifest
  job : Job
deriving DecidableEq

/-- What a command leaves behind, with the log that its verbosity shows. -/
structure CommandReport where
  status : Nat
  stdout : Bytes := []
  stderr : Bytes := []
  verbosity : Int64 := 0
  logFile : Option Bytes := none
  log : List LogEntry := []
deriving DecidableEq

/-- The settings of a manifest under the options that were given. -/
def overridden (m : Manifest) (o : Options) : Manifest :=
  { m with
    debug := o.debug.getD m.debug
    maxSteps := o.maxSteps.getD m.maxSteps
    port := o.port.getD m.port
    verbosity := if m.verbosity < o.verbosity then o.verbosity else m.verbosity }

/-- The job that options, manifest and arguments ask for. The program is the argument, or else
the entry of the manifest. -/
def jobOf (m : Manifest) (o : Options) (arguments : List Bytes) : Job :=
  if o.editor then .edit
  else if o.serve then .serve m.port
  else
    let given := arguments.head?.getD []
    let path := if given.isEmpty then m.entryPath?.getD [] else given
    if path.isEmpty ∨ 1 < arguments.length then .explain
    else
      .run path o.remote
        { debug := m.debug, maxSteps := m.maxSteps, listing := o.listing,
          diagnostics := m.diagnosticsWriter }

/-- The report of a command whose options cannot be used. -/
def tellOptionFault (fault : OptionFault) : CommandReport :=
  { status := if fault = .help then statusOk else statusBadInput
    stderr := fault.message ++ usage }

/-- Decides what to do. -/
def plan (parse : SettingsReader) (disk : Disk) (base : Bytes) (arguments : List Bytes) :
    Except CommandReport Plan :=
  match Options.read arguments with
  | .error fault => .error (tellOptionFault fault)
  | .ok (options, rest) =>
    match Manifest.forRun parse disk base options.config with
    | .error fault => .error { status := statusBadInput, stderr := errorLine fault.message }
    | .ok found =>
      let manifest := overridden found options
      .ok { manifest, job := jobOf manifest options rest }

/-- Which channels lead to a stream, if diagnostics go to the given one. -/
def leadsTo (diagnostics stream : Stream) : Channel → Bool
  | .diagnostics => diagnostics = stream
  | .stdout => stream = .stdout
  | .stderr => stream = .stderr

namespace Plan

/-- Puts what a command did on the streams of the plan. -/
def report (p : Plan) (t : Transcript) : CommandReport :=
  { status := t.status
    stdout := t.received (leadsTo p.manifest.diagnostics .stdout)
    stderr := t.received (leadsTo p.manifest.diagnostics .stderr)
    verbosity := p.manifest.verbosity
    logFile := p.manifest.logPath?
    log := t.log.filter (LogEntry.isShown p.manifest.verbosity.toInt) }

/-- Why a port cannot be listened on. -/
def listenFault (port : Int64) : Bytes :=
  if 0 ≤ port ∧ port ≤ 65535 then
    utf8 "listen tcp :" ++ Text.Decimal.ofInt64 port ++ utf8 ": operation not supported"
  else utf8 "listen tcp: address " ++ Text.Decimal.ofInt64 port ++ utf8 ": invalid port"

/-- Tells of a service that cannot listen. -/
def tellServe (port : Int64) : Transcript :=
  let place := utf8 ":" ++ Text.Decimal.ofInt64 port
  let listening : Transcript :=
    { log :=
        [{ level := .notice, logger := serverLogger,
            text := utf8 "stackvm server listening on " ++ place },
          { level := .info, logger := serverLogger,
            text := utf8 "  Connect (CBOR): http://" ++ place ++ Service.Procedure.path .run }] }
  (listening.write .stderr (textLine [utf8 "Server error: ", listenFault port])).exit statusFailure

/-- The log entry of a program that was read. -/
def loaded (path source : Bytes) : LogEntry :=
  { level := .info
    logger := shellLogger
    text := utf8 "loaded " ++ path ++ utf8 " (" ++ Text.Decimal.ofNat source.length ++
      utf8 " bytes)" }

/-- Runs a program that was read. -/
def runSource (codec : Wire.Codec) (fuel : Nat) (network : Network) (path remote : Bytes)
    (options : RunOptions) (source : Bytes) : Option Transcript :=
  let ran :=
    if remote.isEmpty then runHere fuel options source
    else runThere (network.ask codec fuel remote) options source
  ran.map fun t => { t with log := loaded path source :: t.log }

/-- Tells of a command that could not use its input. -/
def tellBadInput (text : Bytes) : Transcript :=
  (({} : Transcript).write .stderr text).exit statusBadInput

/-- Does the job of a plan, the editor apart. `none` if the fuel runs out before a program
ends. -/
def perform (codec : Wire.Codec) (fuel : Nat) (disk : Disk) (network : Network) (p : Plan) :
    Option CommandReport :=
  match p.job with
  | .edit => some (p.report {})
  | .explain => some (p.report (tellBadInput usage))
  | .serve port => some (p.report (tellServe port))
  | .run path remote options =>
    match disk.read path with
    | .error why => some (p.report (tellBadInput (errorLine why)))
    | .ok source => (runSource codec fuel network path remote options source).map p.report

/-- The report of a command that served an editor. -/
def reportEdit (p : Plan) (warnings : List Bytes) : CommandReport :=
  p.report
    { log := warnings.map fun text => { level := .warning, logger := serverLogger, text } }

/-- The file that the job reads. -/
def input? (p : Plan) : Option Bytes :=
  match p.job with
  | .run path _ _ => some path
  | _ => none

end Plan

end StackMachine.Shell
