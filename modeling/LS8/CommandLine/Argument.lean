/-
LS8/CommandLine/Argument.lean

A stand-in for the library that reads arguments, part one: the arguments that
the command line knows, which are the program file, the log level and four
switches; what can be wrong with them; and the texts for both.
-/
import LS8.CommandLine.Options
import LS8.Text.Printable

namespace LS8.CommandLine

/-- The log level with this name.  Names are in lower case. -/
def LogLevel.ofName? : String → Option LogLevel
  | "off" => some .off
  | "error" => some .error
  | "warn" => some .warn
  | "info" => some .info
  | "debug" => some .debug
  | "trace" => some .trace
  | _ => none

/-- The arguments that take no value. -/
inductive Switch where
  | trace
  | dump
  | help
  | version
  deriving DecidableEq, Repr

/-- The arguments that are named on the command line. -/
inductive Named where
  | logLevel
  | switch (switch : Switch)
  deriving DecidableEq, Repr

namespace Named

/-- The argument with this long name. -/
def ofLong? : String → Option Named
  | "log-level" => some .logLevel
  | "trace" => some (.switch .trace)
  | "dump" => some (.switch .dump)
  | "help" => some (.switch .help)
  | "version" => some (.switch .version)
  | _ => none

/-- The argument with this short name. -/
def ofShort? : Char → Option Named
  | 'l' => some .logLevel
  | 't' => some (.switch .trace)
  | 'h' => some (.switch .help)
  | 'V' => some (.switch .version)
  | _ => none

end Named

/-- All arguments. -/
inductive Argument where
  /-- The program file. -/
  | program
  | named (named : Named)
  deriving DecidableEq, Repr

/-- How an argument is called in a message. -/
def Argument.display : Argument → String
  | .program => "<PROGRAM>"
  | .named .logLevel => "--log-level <LOG_LEVEL>"
  | .named (.switch .trace) => "--trace"
  | .named (.switch .dump) => "--dump"
  | .named (.switch .help) => "--help"
  | .named (.switch .version) => "--version"

/-- What can be wrong with the arguments. -/
inductive UsageError where
  /-- An argument that needs a value has none, or an empty one. -/
  | missingValue (argument : Argument)
  /-- An argument that may be given once is given again. -/
  | repeated (argument : Argument)
  /-- The log level is none of the known ones. -/
  | invalidLevel (value : String)
  /-- There is no such argument, or no place for it. -/
  | unexpectedArgument (text : String)
  /-- A switch is given a value. -/
  | unexpectedValue (switch : Switch) (value : String)
  /-- The program file is not given. -/
  | missingProgram
  deriving DecidableEq, Repr

/-- A given text, as a message repeats it: what only a terminal understands is left out. -/
def echo (text : String) : String := String.ofList (Text.printable text.toList)

/-- The first line of the message about wrong arguments; a line feed in a text that it repeats
breaks it. -/
def UsageError.message : UsageError → String
  | .missingValue argument =>
    s!"error: a value is required for '{argument.display}' but none was supplied"
  | .repeated argument => s!"error: the argument '{argument.display}' cannot be used multiple times"
  | .invalidLevel value =>
    s!"error: invalid value '{echo value}' for '{(Argument.named .logLevel).display}'"
  | .unexpectedArgument text => s!"error: unexpected argument '{echo text}' found"
  | .unexpectedValue switch value =>
    let name := (Argument.named (.switch switch)).display
    s!"error: unexpected value '{echo value}' for '{name}' found; no more were expected"
  | .missingProgram => "error: the following required arguments were not provided:"

end LS8.CommandLine
