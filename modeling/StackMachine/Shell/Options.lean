import StackMachine.Fault
import StackMachine.Text.Numeral

/-! The options of the command line. An option starts with one or two dashes; a switch takes a
value after an equals sign only, any other option also from the next argument. Two dashes
alone, or the first argument that is no option, end the options. -/
namespace StackMachine.Shell

/-- An option. -/
inductive Flag where
  | verbose
  | debug
  | maxSteps
  | config
  | listing
  | serve
  | port
  | editor
  | remote
deriving DecidableEq

namespace Flag

/-- Every option. -/
def all : List Flag :=
  [.verbose, .debug, .maxSteps, .config, .listing, .serve, .port, .editor, .remote]

/-- The name of an option. -/
def name : Flag → Bytes
  | .verbose => utf8 "v"
  | .debug => utf8 "debug"
  | .maxSteps => utf8 "max-steps"
  | .config => utf8 "config"
  | .listing => utf8 "disasm"
  | .serve => utf8 "serve"
  | .port => utf8 "port"
  | .editor => utf8 "lsp"
  | .remote => utf8 "remote"

/-- The option does not need a value. -/
def isSwitch : Flag → Bool
  | .verbose | .debug | .listing | .serve | .editor => true
  | .maxSteps | .config | .port | .remote => false

/-- The option of a name. -/
def ofName? (name : Bytes) : Option Flag :=
  all.find? fun flag => flag.name == name

end Flag

/-- The options that were given; what overrides a manifest is kept apart from what was not
given. -/
structure Options where
  verbosity : Int64 := 0
  debug : Option Bool := none
  maxSteps : Option Int64 := none
  config : Bytes := []
  listing : Bool := false
  serve : Bool := false
  port : Option Int64 := none
  editor : Bool := false
  remote : Bytes := []
deriving DecidableEq

/-- Why the options cannot be used. -/
inductive OptionFault where
  | malformed (argument : Bytes)
  | undefined (name : Bytes)
  | valueMissing (flag : Flag)
  | badSwitch (flag : Flag) (value why : Bytes)
  | badValue (flag : Flag) (value why : Bytes)
  /-- Not a fault: the usage was asked for. -/
  | help
deriving DecidableEq

/-- The wording of a fault, empty if the usage was asked for. -/
def OptionFault.message : OptionFault → Bytes
  | .malformed argument => utf8 "bad flag syntax: " ++ argument ++ [newline]
  | .undefined name => utf8 "flag provided but not defined: -" ++ name ++ [newline]
  | .valueMissing flag => utf8 "flag needs an argument: -" ++ flag.name ++ [newline]
  | .badSwitch flag value why =>
    utf8 "invalid boolean value " ++ Text.Quoted.quote value ++ utf8 " for -" ++ flag.name ++
      utf8 ": " ++ why ++ [newline]
  | .badValue flag value why =>
    utf8 "invalid value " ++ Text.Quoted.quote value ++ utf8 " for flag -" ++ flag.name ++
      utf8 ": " ++ why ++ [newline]
  | .help => []

namespace Options

/-- The truth value that a text spells. -/
def truth? (text : Bytes) : Option Bool :=
  if ["1", "t", "T", "TRUE", "true", "True"].any fun s => utf8 s == text then some true
  else if ["0", "f", "F", "FALSE", "false", "False"].any fun s => utf8 s == text then some false
  else none

/-- What a count becomes: one more for a bare mention, or the number given. -/
def count (current : Int64) (value : Bytes) : Except Fault Int64 :=
  if value = utf8 "true" then .ok (current + 1)
  else
    match Text.Decimal.readInt64 value with
    | .ok n => .ok n
    | .error problem => .error (.numeral (utf8 "strconv.Atoi") value problem)

/-- What is wrong with a value that is not of the wanted form. -/
def parseError : Bytes := utf8 "parse error"

/-- A truth value, or what is wrong with the text. -/
def readTruth (value : Bytes) : Except Bytes Bool :=
  match truth? value with
  | some b => .ok b
  | none => .error parseError

/-- An integer, or what is wrong with the text. -/
def readInteger (value : Bytes) : Except Bytes Int64 :=
  match Text.Numeral.readInt64 value with
  | .ok n => .ok n
  | .error .malformed => .error parseError
  | .error .outOfRange => .error (Kind.message .valueOutOfRange)

/-- Sets an option to a value, or tells what is wrong with the value. -/
def set (o : Options) (flag : Flag) (value : Bytes) : Except Bytes Options :=
  match flag with
  | .verbose =>
    match count o.verbosity value with
    | .ok verbosity => .ok { o with verbosity }
    | .error fault => .error fault.message
  | .debug => (readTruth value).map fun b => { o with debug := some b }
  | .maxSteps => (readInteger value).map fun n => { o with maxSteps := some n }
  | .config => .ok { o with config := value }
  | .listing => (readTruth value).map fun listing => { o with listing }
  | .serve => (readTruth value).map fun serve => { o with serve }
  | .port => (readInteger value).map fun n => { o with port := some n }
  | .editor => (readTruth value).map fun editor => { o with editor }
  | .remote => .ok { o with remote := value }

/-- An argument as an option: its name, and its value if that stands in the argument. -/
inductive Argument where
  /-- Not an option. -/
  | plain
  /-- Two dashes alone. -/
  | done
  | malformed
  | option (name : Bytes) (value : Option Bytes)
deriving DecidableEq

/-- Splits an option at its first equals sign. -/
def splitValue (text : Bytes) : Bytes × Option Bytes :=
  match text.span (· != 61) with
  | (name, _ :: value) => (name, some value)
  | (name, []) => (name, none)

/-- Recognises an option. -/
def recognise : Bytes → Argument
  | [45, 45] => .done
  | 45 :: 45 :: rest => named rest
  | 45 :: b :: rest => named (b :: rest)
  | _ => .plain
where
  /-- What stands after the dashes: a name must not start with a dash or an equals sign. -/
  named : Bytes → Argument
    | [] => .malformed
    | b :: rest =>
      if b = 45 || b = 61 then .malformed
      else
        let (name, value) := splitValue (b :: rest)
        .option name value

/-- The option of a name; an unknown name may ask for help. -/
def lookup (name : Bytes) : Except OptionFault Flag :=
  match Flag.ofName? name with
  | some flag => .ok flag
  | none =>
    if name = utf8 "help" ∨ name = utf8 "h" then .error .help else .error (.undefined name)

/-- Sets a switch. -/
def setSwitch (o : Options) (flag : Flag) (value : Option Bytes) : Except OptionFault Options :=
  let given := value.getD (utf8 "true")
  match o.set flag given with
  | .ok o' => .ok o'
  | .error why => .error (.badSwitch flag given why)

/-- Sets an option that needs a value. -/
def setValue (o : Options) (flag : Flag) (value : Bytes) : Except OptionFault Options :=
  match o.set flag value with
  | .ok o' => .ok o'
  | .error why => .error (.badValue flag value why)

/-- Reads the options at the front of the arguments: what they set, and the arguments after
them. The value of the option `waiting` is the next argument. -/
def readFrom (o : Options) (waiting : Option Flag) :
    List Bytes → Except OptionFault (Options × List Bytes)
  | [] =>
    match waiting with
    | some flag => .error (.valueMissing flag)
    | none => .ok (o, [])
  | argument :: rest =>
    match waiting with
    | some flag =>
      match o.setValue flag argument with
      | .error fault => .error fault
      | .ok o' => readFrom o' none rest
    | none =>
      match recognise argument with
      | .plain => .ok (o, argument :: rest)
      | .done => .ok (o, rest)
      | .malformed => .error (.malformed argument)
      | .option name value =>
        match lookup name with
        | .error fault => .error fault
        | .ok flag =>
          if flag.isSwitch then
            match o.setSwitch flag value with
            | .error fault => .error fault
            | .ok o' => readFrom o' none rest
          else
            match value with
            | none => readFrom o (some flag) rest
            | some text =>
              match o.setValue flag text with
              | .error fault => .error fault
              | .ok o' => readFrom o' none rest

/-- Reads the options of a command line. -/
def read (arguments : List Bytes) : Except OptionFault (Options × List Bytes) :=
  readFrom {} none arguments

end Options

/-- What the command tells about its use. -/
def usage : Bytes :=
  utf8 "Usage: stackvm [options] [program.svm]

Assembles and runs a stack machine program.

Options:
  -config string
    \tDirectory containing stackvm.toml (default: search upward from .)
  -debug
    \tPrint disassembly and a per-step trace to the diagnostic stream
  -disasm
    \tPrint the disassembly and exit
  -lsp
    \tStart the assembly language server on stdio
  -max-steps int
    \tStop after N instructions (0 means no limit)
  -port int
    \tServer port (used with -serve, default from stackvm.toml or 4580)
  -remote string
    \tRun the program on a remote server, e.g. http://localhost:4580
  -serve
    \tStart the VM server (Connect, CBOR codec)
  -v\tVerbose output (repeat for more: -v -v is debug)

Examples:
  stackvm hello.svm                  # Run a program
  stackvm -debug -max-steps 100 x.svm # Trace, stop after 100 steps
  stackvm -disasm x.svm              # Show the assembled code
  stackvm -serve -port 8080          # Serve the VM over HTTP
  stackvm -remote http://host:4580 x.svm
"

end StackMachine.Shell
