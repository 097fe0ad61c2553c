/-
LS8/CommandLine/Library.lean

What the program takes from libraries outside of it: one that reads arguments,
and one that logs.  Neither is written out here.  A `Library` is any pair of
functions of their types, and

    Library.ReadsArguments, Library.KeepsLog

are what their documentation says of them.  What is shown of a call of the
program rests on that and on nothing else about them.
-/
import LS8.CommandLine.Options
import LS8.Journal.Record

namespace LS8.CommandLine

/-! ### Reading arguments -/

/-- The report of arguments that are not understood. -/
structure Misuse where
  /-- The first line of the message. -/
  message : String
  /-- The exit code of the process. -/
  exitCode : UInt8
  deriving DecidableEq, Repr

/-- What arguments ask for. -/
inductive Request where
  /-- To run a program. -/
  | run (options : Options)
  /-- To answer with a text, as `--help` does, and do nothing else. -/
  | answer (text : List Char)
  deriving DecidableEq, Repr

/-- A choice of options. -/
structure Choice where
  program : String
  /-- The log level, if one is given. -/
  level? : Option LogLevel
  trace : Bool
  dump : Bool
  deriving DecidableEq, Repr

/-- The name of a log level on the command line. -/
def LogLevel.name : LogLevel → String
  | .off => "off"
  | .error => "error"
  | .warn => "warn"
  | .info => "info"
  | .debug => "debug"
  | .trace => "trace"

/-- The arguments that make a choice, in full.  No argument behind `--` is taken for an option. -/
def Choice.arguments (c : Choice) : List String :=
  (c.level?.elim [] fun level => ["--log-level", level.name]) ++
    (if c.trace then ["--trace"] else []) ++ (if c.dump then ["--dump"] else []) ++
    ["--", c.program]

/-- The options of a choice. -/
def Choice.options (c : Choice) : Options :=
  ⟨c.program, c.level?.getD .default, c.trace, c.dump⟩

/-! ### Logging -/

/-- The place of a filter among the levels, from the most severe level on. -/
def LevelFilter.rank : LevelFilter → Nat
  | .off => 0
  | .error => 1
  | .warn => 2
  | .info => 3
  | .debug => 4
  | .trace => 5

/-- A logger at work: which levels it lets through, and how it writes an entry at a moment.  Moments
are counted. -/
structure Console where
  admits : Level → Bool
  line : Nat → Entry → List Char

/-- What the documentation says of a logger that was told a filter: it lets through what is not
beyond the filter, and writes a line with the level on five places, the target and the text, which
may have a time in front. -/
structure Console.Documented (filter : LevelFilter) (console : Console) : Prop where
  admits : ∀ level, console.admits level = true ↔ level.rank ≤ filter.rank
  line : ∀ moment entry, ∃ time, '\n' ∉ time ∧
    console.line moment entry =
      time ++ entry.level.label.toList.rightpad 5 ' ' ++
        s!" [{entry.target}] {entry.text}\n".toList

/-! ### Libraries -/

/-- The functions of the libraries. -/
structure Library where
  /-- Read the arguments of the process. -/
  read : List String → Except Misuse Request
  /-- Set up the logger with a filter. -/
  log : LevelFilter → Except String Console

/-- What the documentation says of reading arguments: a choice that names a file is read as what it
is. -/
def Library.ReadsArguments (library : Library) : Prop :=
  ∀ choice : Choice, choice.program ≠ "" →
    library.read choice.arguments = .ok (.run choice.options)

/-- What the documentation says of logging: a process that has no logger yet is given one. -/
def Library.KeepsLog (library : Library) : Prop :=
  ∀ filter, ∃ console, library.log filter = .ok console ∧ console.Documented filter

end LS8.CommandLine
