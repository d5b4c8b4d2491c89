import StackMachine.Wire.Shape

/-! The messages of the service. -/
namespace StackMachine.Wire

/-- A kind of message, with the name by which a refusal speaks of it. -/
class Message (α : Type) extends Sendable α where
  typeName : Bytes
  admitted : shape.admitted maxDepth = true := by decide

/-- Source text to assemble. -/
structure AssembleRequest where
  source : Bytes := []
deriving DecidableEq

/-- The assembled code, or why there is none; `line` is zero when no line is implicated. -/
structure AssembleResponse where
  code : Option Code := none
  listing : Bytes := []
  error : Bytes := []
  errorClass : Bytes := []
  line : Int64 := 0
deriving DecidableEq

/-- A run of a source text, or of a code if the text is empty; on a session's machine if a
session is named, cleared first if `reset` is set. -/
structure RunRequest where
  source : Bytes := []
  code : Option Code := none
  debug : Bool := false
  maxSteps : Int64 := 0
  sessionId : Bytes := []
  reset : Bool := false
deriving DecidableEq

/-- What a run came to. Failures are reported in `error` and `errorClass`; the other fields
tell the state reached. -/
structure RunResponse where
  exit : Int64 := 0
  output : Bytes := []
  diagnostics : Bytes := []
  error : Bytes := []
  errorClass : Bytes := []
  line : Int64 := 0
  steps : Int64 := 0
  stack : Option (List Int64) := none
  pc : Int64 := 0
deriving DecidableEq

/-- Code to list. -/
structure DisassembleRequest where
  code : Option Code := none
deriving DecidableEq

/-- The listing, up to the first instruction that cannot be listed. -/
structure DisassembleResponse where
  listing : Bytes := []
  error : Bytes := []
  errorClass : Bytes := []
deriving DecidableEq

/-- Asks for the instructions of a session's machine, or for the built-ins. -/
structure InstructionsRequest where
  sessionId : Bytes := []
deriving DecidableEq

/-- One registered instruction. -/
structure InstructionInfo where
  mnemonic : Bytes := []
  opcode : UInt32 := 0
  stackPop : Int64 := 0
  stackPush : Int64 := 0
  usesArg : Bool := false
  summary : Bytes := []
deriving DecidableEq

/-- Instructions in the byte order of their mnemonics. -/
structure InstructionsResponse where
  instructions : Option (List InstructionInfo) := none
deriving DecidableEq

/-- Opens a session under an optional name. -/
structure CreateSessionRequest where
  name : Bytes := []
deriving DecidableEq

/-- The id of the new session. -/
structure CreateSessionResponse where
  sessionId : Bytes := []
deriving DecidableEq

/-- Names the session to drop. -/
structure DestroySessionRequest where
  sessionId : Bytes := []
deriving DecidableEq

/-- Whether the session was there. -/
structure DestroySessionResponse where
  existed : Bool := false
deriving DecidableEq

instance : Message AssembleRequest where
  typeName := utf8 "AssembleRequest"
  shape := .record <|
    .field (utf8 "source") (shape Bytes) .none
  toValue m := (toValue m.source, ())
  ofValue | (source, ()) => { source := ofValue source }
  ofValue_toValue m := by simp only [ofValue_toValue]

instance : Message AssembleResponse where
  typeName := utf8 "AssembleResponse"
  shape := .record <|
    .field (utf8 "code") (shape (Option Code)) <|
    .field (utf8 "listing") (shape Bytes) <|
    .field (utf8 "error") (shape Bytes) <|
    .field (utf8 "error_class") (shape Bytes) <|
    .field (utf8 "line") (shape Int64) .none
  toValue m := (toValue m.code, toValue m.listing, toValue m.error, toValue m.errorClass,
    toValue m.line, ())
  ofValue
    | (code, listing, error, errorClass, line, ()) =>
      { code := ofValue code, listing := ofValue listing, error := ofValue error,
        errorClass := ofValue errorClass, line := ofValue line }
  ofValue_toValue m := by simp only [ofValue_toValue]

instance : Message RunRequest where
  typeName := utf8 "RunRequest"
  shape := .record <|
    .field (utf8 "source") (shape Bytes) <|
    .field (utf8 "code") (shape (Option Code)) <|
    .field (utf8 "debug") (shape Bool) <|
    .field (utf8 "max_steps") (shape Int64) <|
    .field (utf8 "session_id") (shape Bytes) <|
    .field (utf8 "reset") (shape Bool) .none
  toValue m := (toValue m.source, toValue m.code, toValue m.debug, toValue m.maxSteps,
    toValue m.sessionId, toValue m.reset, ())
  ofValue
    | (source, code, debug, maxSteps, sessionId, reset, ()) =>
      { source := ofValue source, code := ofValue code, debug := ofValue debug,
        maxSteps := ofValue maxSteps, sessionId := ofValue sessionId, reset := ofValue reset }
  ofValue_toValue m := by simp only [ofValue_toValue]

instance : Message RunResponse where
  typeName := utf8 "RunResponse"
  shape := .record <|
    .field (utf8 "exit") (shape Int64) <|
    .field (utf8 "output") (shape Bytes) <|
    .field (utf8 "diagnostics") (shape Bytes) <|
    .field (utf8 "error") (shape Bytes) <|
    .field (utf8 "error_class") (shape Bytes) <|
    .field (utf8 "line") (shape Int64) <|
    .field (utf8 "steps") (shape Int64) <|
    .field (utf8 "stack") (shape (Option (List Int64))) <|
    .field (utf8 "pc") (shape Int64) .none
  toValue m := (toValue m.exit, toValue m.output, toValue m.diagnostics, toValue m.error,
    toValue m.errorClass, toValue m.line, toValue m.steps, toValue m.stack, toValue m.pc, ())
  ofValue
    | (exit, output, diagnostics, error, errorClass, line, steps, stack, pc, ()) =>
      { exit := ofValue exit, output := ofValue output, diagnostics := ofValue diagnostics,
        error := ofValue error, errorClass := ofValue errorClass, line := ofValue line,
        steps := ofValue steps, stack := ofValue stack, pc := ofValue pc }
  ofValue_toValue m := by simp only [ofValue_toValue]

instance : Message DisassembleRequest where
  typeName := utf8 "DisassembleRequest"
  shape := .record <|
    .field (utf8 "code") (shape (Option Code)) .none
  toValue m := (toValue m.code, ())
  ofValue | (code, ()) => { code := ofValue code }
  ofValue_toValue m := by simp only [ofValue_toValue]

instance : Message DisassembleResponse where
  typeName := utf8 "DisassembleResponse"
  shape := .record <|
    .field (utf8 "listing") (shape Bytes) <|
    .field (utf8 "error") (shape Bytes) <|
    .field (utf8 "error_class") (shape Bytes) .none
  toValue m := (toValue m.listing, toValue m.error, toValue m.errorClass, ())
  ofValue
    | (listing, error, errorClass, ()) =>
      { listing := ofValue listing, error := ofValue error, errorClass := ofValue errorClass }
  ofValue_toValue m := by simp only [ofValue_toValue]

instance : Message InstructionsRequest where
  typeName := utf8 "InstructionsRequest"
  shape := .record <|
    .field (utf8 "session_id") (shape Bytes) .none
  toValue m := (toValue m.sessionId, ())
  ofValue | (sessionId, ()) => { sessionId := ofValue sessionId }
  ofValue_toValue m := by simp only [ofValue_toValue]

instance : Message InstructionInfo where
  typeName := utf8 "InstructionInfo"
  shape := .record <|
    .field (utf8 "mnemonic") (shape Bytes) <|
    .field (utf8 "opcode") (shape UInt32) <|
    .field (utf8 "stack_pop") (shape Int64) <|
    .field (utf8 "stack_push") (shape Int64) <|
    .field (utf8 "uses_arg") (shape Bool) <|
    .field (utf8 "summary") (shape Bytes) .none
  toValue m := (toValue m.mnemonic, toValue m.opcode, toValue m.stackPop, toValue m.stackPush,
    toValue m.usesArg, toValue m.summary, ())
  ofValue
    | (mnemonic, opcode, stackPop, stackPush, usesArg, summary, ()) =>
      { mnemonic := ofValue mnemonic, opcode := ofValue opcode, stackPop := ofValue stackPop,
        stackPush := ofValue stackPush, usesArg := ofValue usesArg, summary := ofValue summary }
  ofValue_toValue m := by simp only [ofValue_toValue]

instance : Message InstructionsResponse where
  typeName := utf8 "InstructionsResponse"
  shape := .record <|
    .field (utf8 "instructions") (shape (Option (List InstructionInfo))) .none
  toValue m := (toValue m.instructions, ())
  ofValue | (instructions, ()) => { instructions := ofValue instructions }
  ofValue_toValue m := by simp only [ofValue_toValue]

instance : Message CreateSessionRequest where
  typeName := utf8 "CreateSessionRequest"
  shape := .record <|
    .field (utf8 "name") (shape Bytes) .none
  toValue m := (toValue m.name, ())
  ofValue | (name, ()) => { name := ofValue name }
  ofValue_toValue m := by simp only [ofValue_toValue]

instance : Message CreateSessionResponse where
  typeName := utf8 "CreateSessionResponse"
  shape := .record <|
    .field (utf8 "session_id") (shape Bytes) .none
  toValue m := (toValue m.sessionId, ())
  ofValue | (sessionId, ()) => { sessionId := ofValue sessionId }
  ofValue_toValue m := by simp only [ofValue_toValue]

instance : Message DestroySessionRequest where
  typeName := utf8 "DestroySessionRequest"
  shape := .record <|
    .field (utf8 "session_id") (shape Bytes) .none
  toValue m := (toValue m.sessionId, ())
  ofValue | (sessionId, ()) => { sessionId := ofValue sessionId }
  ofValue_toValue m := by simp only [ofValue_toValue]

instance : Message DestroySessionResponse where
  typeName := utf8 "DestroySessionResponse"
  shape := .record <|
    .field (utf8 "existed") (shape Bool) .none
  toValue m := (toValue m.existed, ())
  ofValue | (existed, ()) => { existed := ofValue existed }
  ofValue_toValue m := by simp only [ofValue_toValue]

end StackMachine.Wire
