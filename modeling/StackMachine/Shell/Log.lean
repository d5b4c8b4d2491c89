import StackMachine.Text.Bytes

/-! Log entries, and which of them a verbosity shows. -/
namespace StackMachine.Shell

/-- How important an entry is. -/
inductive Level where
  | warning
  | notice
  | info
  | debug
deriving DecidableEq

namespace Level

/-- The name of a level. -/
def name : Level → Bytes
  | .warning => utf8 "Warning"
  | .notice => utf8 "Notice"
  | .info => utf8 "Info"
  | .debug => utf8 "Debug"

/-- The least verbosity that shows entries of the level. -/
def threshold : Level → Int
  | .warning => -1
  | .notice => 0
  | .info => 1
  | .debug => 2

end Level

/-- An entry of the log. -/
structure LogEntry where
  level : Level
  logger : Bytes
  text : Bytes
deriving DecidableEq

namespace LogEntry

/-- The line of an entry. -/
def line (e : LogEntry) : Bytes :=
  e.level.name ++ utf8 " " ++ e.logger ++ utf8 ": " ++ e.text

/-- The verbosity shows the entry. -/
def isShown (verbosity : Int) (e : LogEntry) : Bool :=
  e.level.threshold ≤ verbosity

end LogEntry

/-- The logger of the command line. -/
def shellLogger : Bytes := utf8 "stackvm.cli"

/-- The logger of the service and of the language server. -/
def serverLogger : Bytes := utf8 "stackvm.server"

end StackMachine.Shell
