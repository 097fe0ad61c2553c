/-
LS8/CommandLine/Reading.lean

A stand-in for the library that reads arguments, part two: reading the command
line, from left to right.  A value is not checked when it is met but when the
next argument comes, or the end: until then it is pending.  An argument that
nothing is known about is reported at once, before a pending value is looked at;
every other argument settles the pending value first.

`--` makes plain values of all arguments behind it.  `--help` and `--version`
end the reading where they stand.
-/
import LS8.CommandLine.Argument
import LS8.CommandLine.Library

namespace LS8.CommandLine

/-- A value that is still to be checked. -/
inductive Pending where
  | nothing
  | program (path : String)
  /-- The log level, whose value may be still to come. -/
  | level (name? : Option String)
  deriving DecidableEq, Repr

/-- What is known of the options so far. -/
structure Reading where
  program? : Option String
  level? : Option LogLevel
  trace : Bool
  dump : Bool
  pending : Pending
  deriving DecidableEq, Repr

/-- Why reading ends before the last argument. -/
inductive Stop where
  | wrong (error : UsageError)
  | help
  | version
  deriving DecidableEq, Repr

namespace Reading

/-- Before the first argument. -/
def start : Reading := ⟨none, none, false, false, .nothing⟩

/-! ### Values -/

/-- Take the name of a log level. -/
def acceptLevel (r : Reading) (name : String) : Except Stop Reading :=
  if r.level?.isSome then throw (.wrong (.repeated (.named .logLevel)))
  else if name.isEmpty then throw (.wrong (.missingValue (.named .logLevel)))
  else match LogLevel.ofName? name with
    | some level => return { r with level? := some level }
    | none => throw (.wrong (.invalidLevel name))

/-- Check the pending value and take it. -/
def settle (r : Reading) : Except Stop Reading :=
  let settled := { r with pending := .nothing }
  match r.pending with
  | .nothing => return settled
  | .program path =>
    if path.isEmpty then throw (.wrong (.missingValue .program))
    else return { settled with program? := some path }
  | .level none => throw (.wrong (.missingValue (.named .logLevel)))
  | .level (some name) => settled.acceptLevel name

/-- Has a program file been given, checked or not? -/
def hasProgram (r : Reading) : Bool :=
  match r.pending with
  | .program _ => true
  | _ => r.program?.isSome

/-- Take a plain value: the program file, if there is none yet. -/
def positional (r : Reading) (value : String) : Except Stop Reading := do
  if r.hasProgram then
    throw (.wrong (.unexpectedArgument value))
  return { ← r.settle with pending := .program value }

/-! ### Named arguments -/

/-- Take a switch. -/
def takeSwitch (r : Reading) (switch : Switch) : Except Stop Reading := do
  let r ← r.settle
  match switch with
  | .trace =>
    if r.trace then
      throw (.wrong (.repeated (.named (.switch .trace))))
    return { r with trace := true }
  | .dump =>
    if r.dump then
      throw (.wrong (.repeated (.named (.switch .dump))))
    return { r with dump := true }
  | .help => throw .help
  | .version => throw .version

/-- Take the name of the log level argument, with its value or without. -/
def takeLevel (r : Reading) (value? : Option String) : Except Stop Reading := do
  let r ← r.settle
  match value? with
  | some value => r.acceptLevel value
  | none => return { r with pending := .level none }

/-- Take a long argument, the text behind `--`.  A value may follow behind `=`. -/
def takeLong (r : Reading) (text : List Char) : Except Stop Reading :=
  let name := String.ofList (text.takeWhile (· != '='))
  let value? := (text.dropWhile (· != '=')).tail?.map String.ofList
  match Named.ofLong? name, value? with
  | none, _ => throw (.wrong (.unexpectedArgument s!"--{name}"))
  | some .logLevel, value? => r.takeLevel value?
  | some (.switch switch), none => r.takeSwitch switch
  | some (.switch switch), some value => throw (.wrong (.unexpectedValue switch value))

/-- Take a cluster of short arguments, the text behind `-`.  The log level uses up the rest of the
cluster for its value, less one `=` in front. -/
def takeShort (r : Reading) : List Char → Except Stop Reading
  | [] => return r
  | c :: rest => do
    match Named.ofShort? c with
    | none => throw (.wrong (.unexpectedArgument s!"-{c}"))
    | some .logLevel =>
      -- the rest of the cluster is the value, so nothing follows
      match rest with
      | [] => r.takeLevel none
      | '=' :: value => r.takeLevel (some (String.ofList value))
      | value => r.takeLevel (some (String.ofList value))
    | some (.switch switch) => (← r.takeSwitch switch).takeShort rest

/-! ### The whole line -/

/-- Take an argument in front of `--`. -/
def argument (r : Reading) (text : String) : Except Stop Reading :=
  match text.toList with
  | '-' :: '-' :: rest => r.takeLong rest
  | '-' :: c :: rest => r.takeShort (c :: rest)
  | _ =>
    match r.pending with
    | .level none => return { r with pending := .level (some text) }
    | _ => r.positional text

/-- Take all arguments. -/
def arguments (r : Reading) : List String → Except Stop Reading
  | [] => return r
  | "--" :: rest => rest.foldlM positional r
  | text :: rest => do (← r.argument text).arguments rest

/-- The options, once all arguments are taken. -/
def finish (r : Reading) : Except Stop Options := do
  let r ← r.settle
  match r.program? with
  | none => throw (.wrong .missingProgram)
  | some program => return ⟨program, r.level?.getD .default, r.trace, r.dump⟩

end Reading

/-! ### Answers -/

/-- The answer to `--version`. -/
def versionText : String := "ls8 0.1.0\n"

/-- The lines of the answer to `--help`. -/
def helpLines : List String :=
  ["Runs a program on the LS-8 8-bit computer",
    "",
    "Usage: ls8 [OPTIONS] <PROGRAM>",
    "",
    "Arguments:",
    "  <PROGRAM>  Program file, one binary byte per line",
    "",
    "Options:",
    "  -l, --log-level <LOG_LEVEL>  [default: warn] " ++
      "[possible values: off, error, warn, info, debug, trace]",
    "  -t, --trace                  Log the machine state before every instruction",
    "      --dump                   Print the loaded memory before running",
    "  -h, --help                   Print help",
    "  -V, --version                Print version"]

/-- The answer to `--help`. -/
def helpText : String := String.join (helpLines.map (· ++ "\n"))

/-- Read the command line. -/
def parse (args : List String) : Except Misuse Request :=
  match Reading.start.arguments args >>= Reading.finish with
  | .ok options => .ok (.run options)
  | .error .help => .ok (.answer helpText.toList)
  | .error .version => .ok (.answer versionText.toList)
  | .error (.wrong error) => .error ⟨error.message, 2⟩

end LS8.CommandLine
