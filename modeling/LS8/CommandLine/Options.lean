/-
LS8/CommandLine/Options.lean

What the command line can ask for: the program file, the log level and two
switches.
-/
namespace LS8.CommandLine

/-- The log levels that can be chosen. -/
inductive LogLevel where
  | off
  | error
  | warn
  | info
  | debug
  | trace
  deriving DecidableEq, Repr

/-- What a logger is told to let through: nothing, or the records up to a level. -/
inductive LevelFilter where
  | off
  | error
  | warn
  | info
  | debug
  | trace
  deriving DecidableEq, Repr

/-- The filter for a log level. -/
def LogLevel.filter : LogLevel → LevelFilter
  | .off => .off
  | .error => .error
  | .warn => .warn
  | .info => .info
  | .debug => .debug
  | .trace => .trace

/-- The log level if none is chosen. -/
def LogLevel.default : LogLevel := .warn

/-- What the command line asks for. -/
structure Options where
  /-- The path of the program file. -/
  program : String
  level : LogLevel
  /-- Is the machine to show itself before every cycle? -/
  trace : Bool
  /-- Is the memory to be shown when the program is loaded? -/
  dump : Bool
  deriving DecidableEq, Repr

/-- The filter for the logger: with `--trace` it lets through everything, whatever the log level. -/
def Options.filter (o : Options) : LevelFilter := if o.trace then .trace else o.level.filter

end LS8.CommandLine
