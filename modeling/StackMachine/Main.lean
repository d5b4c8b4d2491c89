import StackMachine.Config.Settings
import StackMachine.Editor.Frame
import StackMachine.Editor.Params
import StackMachine.Editor.Protocol
import StackMachine.Json.Reader
import StackMachine.Shell.CommandLine
import StackMachine.Wire.Standard

/-! The command. Files that it may need are looked up before the plan is made; everything else
is decided by the plan. Here it is settled how settings, editor messages and service messages are
read. -/
namespace StackMachine.Shell

open Config (Disk Found)

/-- More steps than any program can be waited for. -/
def patience : Nat := 0x4000000000000000

/-- What a failed attempt to read tells about a path. -/
def foundBy : IO.Error → Found
  | .noFileOrDirectory .. => .nothing .missing
  | .inappropriateType _ code _ => if code = 21 then .directory else .nothing .notDirectory
  | .invalidArgument .. => .nothing .invalidName
  | .permissionDenied .. => .sealed
  | _ => .nothing .missing

/-- Looks up a path. -/
def look (path : Bytes) : IO (Bytes × Found) := do
  match String.fromUTF8? ⟨path.toArray⟩ with
  | none => return (path, .nothing .missing)
  | some name =>
    try
      let content ← IO.FS.readBinFile name
      return (path, .file content.toList)
    catch error => return (path, foundBy error)

/-- Writes bytes to a stream. -/
def put (stream : IO.FS.Stream) (text : Bytes) : IO Unit := do
  stream.write ⟨text.toArray⟩
  stream.flush

/-- Reads a header; `none` at the end of the input. -/
partial def readHeader (input : IO.FS.Stream) (length : Nat) : IO (Option Nat) := do
  let line ← input.getLine
  if line.isEmpty then return none
  let text := utf8 line
  if Editor.Frame.isBlank text then return some length
  readHeader input ((Editor.Frame.length? (Bytes.dropFinal newline text)).getD length)

/-- Reads a number of bytes, or as many as there are. -/
partial def readBody (input : IO.FS.Stream) (missing : Nat) (read : ByteArray) : IO ByteArray := do
  if missing = 0 then return read
  let chunk ← input.read missing.toUSize
  if chunk.isEmpty then return read
  readBody input (missing - chunk.size) (read ++ chunk)

/-- Serves an editor until it leaves; returns the warnings for the log. -/
partial def serveEditor (input output : IO.FS.Stream) (x : Editor.Exchange) : IO (List Bytes) := do
  match ← readHeader input 0 with
  | none => return x.warnings
  | some length =>
    let body ← readBody input length .empty
    match Json.parse body.toList with
    | none => return x.warnings
    | some message =>
      if Editor.isExit message then return x.warnings
      let after := Editor.Exchange.handle .ofMembers { x with sent := [] } message
      for reply in after.sent do
        put output (Editor.Frame.encode reply.render)
      serveEditor input output after

/-- Writes what a command leaves behind; returns its status. -/
def deliver (report : CommandReport) : IO UInt32 := do
  for entry in report.log do
    put (← IO.getStderr) (entry.line ++ [newline])
  put (← IO.getStdout) report.stdout
  put (← IO.getStderr) report.stderr
  return UInt32.ofNat report.status

/-- The files to look up before a plan is made. -/
def searched (base : Bytes) (arguments : List Bytes) : List Bytes :=
  match Options.read arguments with
  | .ok (options, _) => Config.Manifest.candidates base options.config
  | .error _ => []

/-- Carries out a command line in the working directory. -/
def command (base : Bytes) (arguments : List Bytes) : IO UInt32 := do
  let manifests ← (searched base arguments).mapM look
  match plan Config.Settings.parse (Disk.ofLookups manifests) base arguments with
  | .error report => deliver report
  | .ok p =>
    if p.job = .edit then
      let warnings ← serveEditor (← IO.getStdin) (← IO.getStdout)
        { session := { registry := .builtins } }
      deliver (p.reportEdit warnings)
    else
      let programs ← p.input?.toList.mapM look
      match p.perform .standard patience (Disk.ofLookups programs) fun _ => none with
      | some report => deliver report
      | none => return UInt32.ofNat statusFailure

end StackMachine.Shell

/-- The command. -/
def main (arguments : List String) : IO UInt32 := do
  let base ← IO.currentDir
  StackMachine.Shell.command (StackMachine.utf8 base.toString) (arguments.map StackMachine.utf8)
