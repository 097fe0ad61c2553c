/-
LS8/Main.lean

The program: reads the arguments and the program file they name, prints the
report and ends with its exit code.
-/
import LS8.CommandLine.Report

namespace LS8

/-- The number of a system error, which may come negated. -/
def errorNumber (code : UInt32) : UInt32 := min code (0 - code)

/-- Why a file could not be read. -/
def readFailure : IO.Error → Program.ReadFailure
  | .noFileOrDirectory .. => .notFound
  | .permissionDenied .. => .other "Permission denied (os error 13)"
  | failure@(.inappropriateType _ code _) | failure@(.invalidArgument _ code _) =>
    match errorNumber code with
    | 20 => .notDirectory
    | 21 => .isDirectory
    | 36 => .nameTooLong
    | _ => .other (toString failure)
  | failure => .other (toString failure)

/-- Read a file, or say why it cannot be read. -/
def readProgram (path : String) : IO Program.Content := do
  try
    return .ok (← IO.FS.readBinFile path)
  catch failure =>
    return .error (readFailure failure)

end LS8

open LS8

/-- Run the command line. -/
def main (args : List String) : IO UInt32 := do
  let request := CommandLine.parse args
  let content ← match request with
    | .ok (.run options) => readProgram options.program
    | _ => pure (.error .notFound)
  let report := CommandLine.report request fun _ => content
  IO.print (String.ofList report.stdout)
  match report.ending with
  | .completed => pure ()
  | .failed messages => messages.forM fun message => IO.eprintln s!"Error: {message}"
  | .misused error => IO.eprintln error.message
  return report.ending.exitCode.toUInt32
