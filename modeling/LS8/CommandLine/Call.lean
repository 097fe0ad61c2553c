/-
LS8/CommandLine/Call.lean

What a call of the program shows and how it ends.  Everything goes to one
stream, in the order in which it happens: the records of loading, the dump if
it is asked for, and then the output and the records of the run.  The logger
takes records away and nothing else.
-/
import LS8.CommandLine.Library
import LS8.Journal.Loading
import LS8.Machine.Run
import LS8.Memory.Dump

namespace LS8.CommandLine

/-- How a call ends. -/
inductive Ending where
  /-- The machine stopped, or there was nothing to run. -/
  | completed
  /-- No logger was set up, the program could not be loaded, or it faulted; the messages go from the
  outside in. -/
  | failed (messages : List String)
  /-- The arguments are wrong. -/
  | misused (error : Misuse)
  deriving DecidableEq, Repr

/-- The exit code of the process. -/
def Ending.exitCode : Ending → UInt8
  | .completed => 0
  | .failed _ => 1
  | .misused error => error.exitCode

/-- What a call shows and how it ends. -/
structure Report where
  stdout : List Char
  ending : Ending

/-- What a logger leaves of a journal that begins at a moment: all output, and the records that it
lets through. -/
def Console.display (console : Console) (moment : Nat) : Journal → List Char
  | [] => []
  | .output text :: journal => text ++ console.display (moment + 1) journal
  | .record record :: journal =>
    if console.admits record.level then
      console.line moment record.entry ++ console.display (moment + 1) journal
    else console.display (moment + 1) journal

/-- How a call ends that ran a program. -/
def endingOf (reply : Reply Unit) : Ending :=
  match reply.result with
  | .ok _ => .completed
  | .error fault =>
    let address := String.ofList (Numeral.hex 2 reply.machine.pc.toNat)
    .failed (s!"Machine fault at 0x{address}" :: fault.message :: fault.cause?.toList)

/-- Load the program and run it. -/
def Options.execute (o : Options) (content : Program.Content) : Journal × Ending :=
  let loading := (Program.fileRecorded ramSize content).map Event.record
  match Program.loadFile content with
  | .error failure => (loading, .failed (s!"Failed to load `{o.program}`" :: failure.messages))
  | .ok loaded =>
    let dump := if o.dump then [Event.output loaded.memory.dump] else []
    let reply := { Machine.boot loaded.memory with tracing := o.trace }.run .unlimited
    (loading ++ dump ++ reply.journal, endingOf reply)

/-- Do what is asked for.  `files` gives the content of the program file. -/
def Library.report (library : Library) (request : Except Misuse Request)
    (files : String → Program.Content) : Report :=
  match request with
  | .error error => ⟨[], .misused error⟩
  | .ok (.answer text) => ⟨text, .completed⟩
  | .ok (.run options) =>
    match library.log options.filter with
    | .error reason => ⟨[], .failed [s!"failed to install logger: {reason}"]⟩
    | .ok console =>
      let (journal, ending) := options.execute (files options.program)
      ⟨console.display 0 journal, ending⟩

/-- A call of the program. -/
def Library.call (library : Library) (args : List String) (files : String → Program.Content) :
    Report :=
  library.report (library.read args) files

end LS8.CommandLine
