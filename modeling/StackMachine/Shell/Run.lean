import StackMachine.Service.Exchange
import StackMachine.Shell.Address
import StackMachine.Shell.Log

/-! Running a program from the command line, here or on a service. Both tell the same. -/
namespace StackMachine.Shell

open Service (Answer Request Refusal)

/-- The status of a command that did its work. -/
def statusOk : Nat := 0

/-- The status of a command whose program failed. -/
def statusFailure : Nat := 1

/-- The status of a command that could not use its input. -/
def statusBadInput : Nat := 2

/-- How a program is to be run, and the writer that its diagnostics go to. -/
structure RunOptions where
  debug : Bool := false
  maxSteps : Int64 := 0
  listing : Bool := false
  diagnostics : Writer := .standard
deriving DecidableEq

/-- What a command writes to. Two of them may lead to one stream. -/
inductive Channel where
  /-- The writer for diagnostics. -/
  | diagnostics
  | stdout
  | stderr
deriving DecidableEq

/-- What a command leaves behind: its status, its log, and every byte that it wrote, in order and
with the channel that it went to. -/
structure Transcript where
  status : Nat := statusOk
  written : List (Channel × UInt8) := []
  log : List LogEntry := []
deriving DecidableEq

namespace Transcript

/-- The command goes on to write a text. -/
def write (t : Transcript) (channel : Channel) (text : Bytes) : Transcript :=
  { t with written := t.written ++ text.map fun b => (channel, b) }

/-- The command ends with a status. -/
def exit (t : Transcript) (status : Nat) : Transcript :=
  { t with status }

/-- What a stream receives, by the channels that lead to it. -/
def received (t : Transcript) (leads : Channel → Bool) : Bytes :=
  (t.written.filter fun (channel, _) => leads channel).map Prod.snd

end Transcript

/-- A line of text. -/
def textLine (parts : List Bytes) : Bytes :=
  parts.flatten ++ [newline]

/-- The line that tells why a program does not assemble. -/
def assemblyErrorLine (message : Bytes) : Bytes :=
  textLine [utf8 "Assembly error: ", message]

/-- The line that tells why a command failed. -/
def errorLine (message : Bytes) : Bytes :=
  textLine [utf8 "Error: ", message]

/-- The line that tells why a program failed. -/
def failureLine (className message : Bytes) : Bytes :=
  textLine [utf8 "Error (", className, utf8 "): ", message]

/-- The line that tells what a program exited with. -/
def exitLine (value : Int64) : Bytes :=
  textLine [utf8 "exit: ", Text.Decimal.ofInt64 value]

/-- A stack in brackets, bottom first. -/
def stackText (s : State) : Bytes :=
  utf8 "[" ++ Bytes.join [space] (s.bottomUp.map Text.Decimal.ofInt64) ++ utf8 "]"

private def debugEntry (text : Bytes) : LogEntry :=
  { level := .debug, logger := shellLogger, text }

/-- The log of a run here. -/
def runLog (report : Report) : List LogEntry :=
  let executed :=
    debugEntry (utf8 "executed " ++ Text.Decimal.ofNat report.steps ++ utf8 " steps")
  if report.fault.runtime?.isSome then
    [executed, debugEntry (utf8 "stack at failure: " ++ stackText report.state)]
  else [executed]

/-- Tells of a run that ended here, and that wrote its diagnostics to the given writer. -/
def tellReport (diagnostics : Writer) (report : Report) : Transcript :=
  let told : Transcript :=
    ({ log := runLog report } : Transcript)
      |>.write .diagnostics (report.state.reported.textOf diagnostics)
      |>.write .stdout report.output
  if report.fault.isPresent then
    (told.write .stderr (failureLine report.fault.classify.name report.fault.message)).exit
      statusFailure
  else told.write .stdout (exitLine report.exit)

/-- The state that a program starts from here. -/
def startHere (options : RunOptions) : State :=
  { debug := options.debug, reported := { writer := options.diagnostics } }

/-- Tells why a program does not assemble. -/
def tellUnassembled (t : Transcript) (message : Bytes) : Transcript :=
  (t.write .stderr (assemblyErrorLine message)).exit statusBadInput

/-- Runs or lists a program here. `none` if the fuel runs out before the program ends. -/
def runHere (fuel : Nat) (options : RunOptions) (source : Bytes) : Option Transcript :=
  match Assembly.assemble .builtins source with
  | .error fault => some (tellUnassembled {} fault.message)
  | .ok code =>
    if options.listing then
      let listing := Listing.ofCode .builtins code
      let told := ({} : Transcript).write .stdout listing.text
      if listing.fault.isPresent then
        some ((told.write .stderr (errorLine listing.fault.message)).exit statusFailure)
      else some told
    else
      (Budget.run fuel .live options.maxSteps.toInt .builtins code (startHere options)).map
        (tellReport options.diagnostics)

/-- Tells of a request that was refused. -/
def tellRefusal (refusal : Refusal) : Transcript :=
  (({} : Transcript).write .stderr (errorLine refusal.message)).exit statusFailure

/-- Tells of a listing that a service made. -/
def tellAssembly (response : Wire.AssembleResponse) : Transcript :=
  if response.error.isEmpty then ({} : Transcript).write .stdout response.listing
  else tellUnassembled {} response.error

/-- Tells of a run on a service. -/
def tellRun (response : Wire.RunResponse) : Transcript :=
  let told : Transcript :=
    ({} : Transcript)
      |>.write .diagnostics response.diagnostics
      |>.write .stdout response.output
  if response.errorClass = FaultClass.name .assembly then tellUnassembled told response.error
  else if response.error.isEmpty then told.write .stdout (exitLine response.exit)
  else
    (told.write .stderr (failureLine response.errorClass response.error)).exit statusFailure

/-- The request that runs or lists a program. -/
def runRequest (options : RunOptions) (source : Bytes) : Request :=
  if options.listing then .assemble { source }
  else .run { source, debug := options.debug, maxSteps := options.maxSteps }

/-- Tells of the answer to a request. -/
def tellAnswer : Answer → Transcript
  | .error refusal => tellRefusal refusal
  | .ok (.assemble response) => tellAssembly response
  | .ok (.run response) => tellRun response
  | .ok _ => { status := statusFailure }

/-- Runs or lists a program on a service, which is asked through `ask`. -/
def runThere (ask : Request → Option Answer) (options : RunOptions) (source : Bytes) :
    Option Transcript :=
  (ask (runRequest options source)).map tellAnswer

/-- What can be reached: the service at a host. -/
abbrev Network := Bytes → Option Service

/-- Asks the service at an address. -/
def Network.ask (codec : Wire.Codec) (fuel : Nat) (network : Network) (base : Bytes)
    (request : Request) : Option Answer :=
  let text := Bytes.trimEnd 47 base ++ request.procedure.path
  match Address.parse text with
  | .error problem => some (.error (.unreachable (Address.complaint text problem)))
  | .ok address =>
    match network address.host with
    | none => some (.error (.unreachable (utf8 "no route to host")))
    | some service =>
      if address.path = request.procedure.path then
        (service.call codec fuel [] request).map fun (_, answer) => answer
      else some (.error .unknownProcedure)

end StackMachine.Shell
