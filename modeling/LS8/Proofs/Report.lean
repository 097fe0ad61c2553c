/-
LS8/Proofs/Report.lean

What a call of the program shows, and how it ends.

Everything that loading and the run tell happens whatever the options are, with
two exceptions: the dump is there if it is asked for, and traces are there if
the machine is traced.  The log level only takes records away from what is shown
(`Shows`).  A call ends in one of three ways (`Choice.Ended`), which its exit
code and its messages tell apart.  So the options have no part in how a call
ends, in what the program prints, and in any record but a trace.

`report_faithful` says so for any libraries that do what is documented of them.
-/
import LS8.CommandLine.Report
import LS8.Proofs.Output
import LS8.Proofs.Tracing
import Mathlib.Control.Monad.Basic

namespace LS8.CommandLine

open Program (load recorded loadFile fileRecorded summary Flaw Loaded)

/-! ### What is shown of a journal -/

/-- The levels of the records that are shown. -/
def LogLevel.levels : LogLevel → List Level
  | .off => []
  | .error => [.error]
  | .warn => [.error, .warn]
  | .info => [.error, .warn, .info]
  | .debug => [.error, .warn, .info, .debug]
  | .trace => [.error, .warn, .info, .debug, .trace]

/-- The levels as a line has them. -/
def levelNames : List (Level × String) :=
  [(.error, "ERROR"), (.warn, "WARN "), (.info, "INFO "), (.debug, "DEBUG"), (.trace, "TRACE")]

/-- What is shown of a journal: all output, and of every record on one of the levels a line, in
their order; and nothing else. -/
inductive Shows (limit : LogLevel) : Journal → List Char → Prop
  | nil : Shows limit [] []
  /-- Output stays as it is. -/
  | output {journal : Journal} {shown : List Char} (text : List Char)
      (hrest : Shows limit journal shown) :
      Shows limit (.output text :: journal) (text ++ shown)
  /-- A record is a line, which may have a time in front. -/
  | kept {record : Record} {name : String} {time : List Char} {journal : Journal}
      {shown : List Char} (hlevel : record.level ∈ limit.levels)
      (hname : (record.level, name) ∈ levelNames) (htime : '\n' ∉ time)
      (hrest : Shows limit journal shown) :
      Shows limit (.record record :: journal)
        (time ++ s!"{name} [{record.component.name}] {record.text}\n".toList ++ shown)
  /-- A record that is less severe is left out. -/
  | removed {record : Record} {journal : Journal} {shown : List Char}
      (hlevel : record.level ∉ limit.levels) (hrest : Shows limit journal shown) :
      Shows limit (.record record :: journal) shown

/-- The log level that counts: with `--trace` it is trace, and if none is chosen it is warn. -/
def Choice.effective (c : Choice) : LogLevel := if c.trace then .trace else c.level?.getD .warn

theorem LogLevel.rank_le_iff (limit : LogLevel) (level : Level) :
    level.rank ≤ limit.filter.rank ↔ level ∈ limit.levels := by
  cases limit <;> cases level <;> decide

theorem Choice.filter_eq (c : Choice) : c.options.filter = c.effective.filter := by
  rw [Options.filter, Choice.effective]
  show (if c.trace then _ else _) = _
  split <;> rfl

theorem exists_levelName (level : Level) :
    ∃ name, (level, name) ∈ levelNames ∧ level.label.toList.rightpad 5 ' ' = name.toList := by
  cases level with
  | error => exact ⟨"ERROR", by decide, rfl⟩
  | warn => exact ⟨"WARN ", by decide, rfl⟩
  | info => exact ⟨"INFO ", by decide, rfl⟩
  | debug => exact ⟨"DEBUG", by decide, rfl⟩
  | trace => exact ⟨"TRACE", by decide, rfl⟩

/-- **A logger that does what is documented leaves out records, and nothing else.** -/
theorem Console.Documented.shows {console : Console} {limit : LogLevel}
    (h : console.Documented limit.filter) (moment : Nat) (journal : Journal) :
    Shows limit journal (console.display moment journal) := by
  induction journal generalizing moment with
  | nil => exact .nil
  | cons event journal ih =>
    rcases event with text | record
    · exact .output text (ih (moment + 1))
    · have hadmits := (h.admits record.level).trans (limit.rank_le_iff record.level)
      rw [Console.display]
      split
      · next hkept =>
        obtain ⟨time, htime, hline⟩ := h.line moment record.entry
        obtain ⟨name, hname, hpadded⟩ := exists_levelName record.level
        have hshown : console.line moment record.entry =
            time ++ s!"{name} [{record.component.name}] {record.text}\n".toList := by
          rw [hline]
          show time ++ record.level.label.toList.rightpad 5 ' ' ++ _ = _
          rw [hpadded, List.append_assoc, ← String.toList_append]
          simp only [String.append_assoc]
          rfl
        rw [hshown]
        exact .kept (hadmits.mp hkept) hname htime (ih (moment + 1))
      · next hremoved =>
        exact .removed (fun hlevel => hremoved (hadmits.mpr hlevel)) (ih (moment + 1))

/-! ### Program files -/

/-- The bytes of a text give the text back. -/
theorem text_toUTF8 (text : String) : Program.Content.text (.ok text.toUTF8) = .ok text.toList := by
  have hvalid : String.fromUTF8? text.toUTF8 = some text := by
    have hbytes : text.toUTF8.IsValidUTF8 := text.isValidUTF8
    exact dif_pos hbytes
  simp only [Program.Content.text, bind, Except.bind, hvalid]
  rfl

theorem loadFile_toUTF8 (text : String) :
    (loadFile (.ok text.toUTF8) : Except _ (Loaded ramSize)) =
      (load Memory.zero text.toList).mapError .malformed := by
  rw [loadFile, text_toUTF8]

/-! ### How a call goes -/

section Call

variable {library : Library} {choice : Choice} {args : List String} {text : String}
  {files : String → Program.Content} {flaws : List Flaw} {loaded : Loaded ramSize}

/-- What loading a text records, as a part of the journal of a call. -/
def loadingOf (text : String) : Journal :=
  (recorded (Memory.zero : Ram) text.toList).map .record

/-- The machine that runs a program. -/
def Choice.machine (c : Choice) (memory : Ram) : Machine := (Machine.boot memory).traced c.trace

/-- The dump of a program, if it is asked for. -/
def Choice.dumped (c : Choice) (memory : Ram) : Journal :=
  if c.dump then [.output memory.dump] else []

/-- The libraries are asked, and then the program is executed. -/
theorem call_eq (hreader : library.ReadsArguments) (hlogger : library.KeepsLog)
    (hprogram : choice.program ≠ "") (hargs : library.read args = library.read choice.arguments)
    (hfile : files choice.program = .ok text.toUTF8) :
    ∃ console : Console, console.Documented choice.effective.filter ∧
      library.call args files =
        ⟨console.display 0 (choice.options.execute (.ok text.toUTF8)).1,
          (choice.options.execute (.ok text.toUTF8)).2⟩ := by
  obtain ⟨console, hconsole, hdocumented⟩ := hlogger choice.options.filter
  rw [choice.filter_eq] at hdocumented
  refine ⟨console, hdocumented, ?_⟩
  have hcontent : files choice.options.program = .ok text.toUTF8 := hfile
  rw [Library.call, hargs, hreader choice hprogram, Library.report]
  dsimp only
  rw [hconsole]
  dsimp only
  rw [hcontent]

/-- A program with flaws is not loaded. -/
theorem execute_of_flaws (hload : load (Memory.zero : Ram) text.toList = .error flaws) :
    choice.options.execute (.ok text.toUTF8) =
      (loadingOf text, .failed [s!"Failed to load `{choice.program}`", summary flaws]) := by
  have hfile : (loadFile (.ok text.toUTF8) : Except _ (Loaded ramSize)) =
      .error (.malformed flaws) := by
    rw [loadFile_toUTF8, hload]
    rfl
  rw [Options.execute, hfile, fileRecorded, text_toUTF8]
  rfl

/-- A program that is loaded runs. -/
theorem execute_of_loaded (hload : load (Memory.zero : Ram) text.toList = .ok loaded) :
    choice.options.execute (.ok text.toUTF8) =
      (loadingOf text ++ choice.dumped loaded.memory ++
          ((choice.machine loaded.memory).run .unlimited).journal,
        endingOf ((choice.machine loaded.memory).run .unlimited)) := by
  have hfile : (loadFile (.ok text.toUTF8) : Except _ (Loaded ramSize)) = .ok loaded := by
    rw [loadFile_toUTF8, hload]
    rfl
  rw [Options.execute, hfile, fileRecorded, text_toUTF8]
  rfl

/-! ### How a call ends -/

/-- The texts of the faults that a machine comes to by itself. -/
inductive Tells : Fault → String → Prop
  | unsupportedOperation (code : Byte) :
      Tells (.unsupportedOperation code) s!"unsupported ALU operation `0b{bits code}`"
  | addressOutOfRange (address : Address) :
      Tells (.addressOutOfRange address)
        s!"memory has no address `0x{String.ofList (Nat.toDigits 16 address.toNat)}`"
  | registerOutOfRange (index : Byte) :
      Tells (.registerOutOfRange index) s!"there is no register R{index}"
  | reservedRegister (index : Byte) :
      Tells (.reservedRegister index)
        s!"register R{index} is reserved and cannot be written by this instruction"
  | divisionByZero : Tells .divisionByZero "division by zero"
  | stackOverflow : Tells .stackOverflow "stack overflow"
  | stackUnderflow : Tells .stackUnderflow "stack underflow"

theorem tells_message {fault : Fault} (hinner : fault.Inner) : Tells fault fault.message := by
  cases fault with
  | unsupportedOperation code =>
    have htells := Tells.unsupportedOperation code
    rwa [← ofList_binary] at htells
  | addressOutOfRange address => exact .addressOutOfRange address
  | registerOutOfRange index => exact .registerOutOfRange index
  | reservedRegister index => exact .reservedRegister index
  | divisionByZero => exact .divisionByZero
  | stackOverflow => exact .stackOverflow
  | stackUnderflow => exact .stackUnderflow
  | output refusal => exact absurd rfl (hinner refusal)

theorem endingOf_of_ok {reply : Reply Unit} (h : reply.result = .ok ()) :
    endingOf reply = .completed := by
  rw [endingOf, h]

/-- The flag has no part in how a run ends. -/
theorem endingOf_traced (m : Machine) (b : Bool) :
    endingOf ((m.traced b).run .unlimited) = endingOf (m.run .unlimited) := by
  have hwatches := m.run_traced b .unlimited
  rw [endingOf, endingOf, hwatches.result, hwatches.machine]
  rfl

/-- A run that faults ends the call with the address of the cycle that faulted, and with the text of
its fault. -/
theorem endingOf_fault {m : Machine} {fault : Fault}
    (hfault : (m.run .unlimited).result = .error fault) :
    ∃ moves last reason, m.Course .unlimited moves last .unlimited ∧
      (last.step .unlimited).result = .error fault ∧ Tells fault reason ∧
      endingOf (m.run .unlimited) =
        .failed [s!"Machine fault at 0x{hexits last.pc}", reason] := by
  obtain ⟨moves, last, hcourse, hmachine⟩ := m.exists_course_unlimited
  obtain ⟨hlast, hstep, -⟩ := hcourse.of_error hfault
  -- an unlimited sink refuses nothing, so the fault has no cause outside the machine
  have hinner := (Machine.due_of_unlimited hlast hstep).inner
  have hcause : fault.cause? = none := by
    cases fault with
    | output refusal => exact absurd rfl (hinner refusal)
    | _ => rfl
  refine ⟨moves, last, fault.message, hcourse, hstep, tells_message hinner, ?_⟩
  rw [endingOf, hfault, hmachine]
  dsimp only
  rw [hcause, ofList_hex]
  rfl

/-- How a call can end: the program is not loaded, or its run stops, or its run faults. -/
inductive Choice.Ended (c : Choice) (text : String) : Ending → Prop
  | unloaded {flaws : List Flaw} (hload : load (Memory.zero : Ram) text.toList = .error flaws) :
      Ended c text (.failed [s!"Failed to load `{c.program}`", summary flaws])
  | stopped {loaded : Loaded ramSize}
      (hload : load (Memory.zero : Ram) text.toList = .ok loaded)
      (hresult : ((c.machine loaded.memory).run .unlimited).result = .ok ()) :
      Ended c text .completed
  | faulted {loaded : Loaded ramSize} {fault : Fault} (address reason : String)
      (hload : load (Memory.zero : Ram) text.toList = .ok loaded)
      (hresult : ((c.machine loaded.memory).run .unlimited).result = .error fault) :
      Ended c text (.failed [s!"Machine fault at 0x{address}", reason])

/-- **A call ends in one of three ways.** -/
theorem Choice.ended (c : Choice) (text : String) :
    c.Ended text (c.options.execute (.ok text.toUTF8)).2 := by
  rcases hload : load (Memory.zero : Ram) text.toList with flaws | loaded
  · rw [execute_of_flaws hload]
    exact .unloaded hload
  · rw [execute_of_loaded hload]
    rcases hresult : ((c.machine loaded.memory).run .unlimited).result with fault | _
    · obtain ⟨_, _, reason, -, -, -, hending⟩ := endingOf_fault hresult
      dsimp only
      rw [hending]
      exact .faulted _ reason hload hresult
    · dsimp only
      rw [endingOf_of_ok hresult]
      exact .stopped hload hresult

/-- The two messages of a failed call are told apart by their first character. -/
theorem loading_ne_fault (program address : String) :
    s!"Failed to load `{program}`" ≠ s!"Machine fault at 0x{address}" := by
  intro h
  have hhead := congrArg (fun message : String => message.toList.head?) h
  simp [String.toList_append] at hhead

section Ended

variable {ending : Ending}

/-- The exit code is zero exactly if the program is loaded and stops. -/
theorem Choice.Ended.exitCode_eq_zero_iff (h : choice.Ended text ending) :
    ending.exitCode = 0 ↔
      ∃ loaded, load (Memory.zero : Ram) text.toList = .ok loaded ∧
        ((choice.machine loaded.memory).run .unlimited).result = .ok () := by
  cases h with
  | unloaded hload => simp [Ending.exitCode, hload]
  | stopped hload hresult => simp [Ending.exitCode, hload, hresult]
  | faulted address reason hload hresult => simp [Ending.exitCode, hload, hresult]

/-- Otherwise the exit code is one. -/
theorem Choice.Ended.exitCode_eq_one_iff (h : choice.Ended text ending) :
    ending.exitCode = 1 ↔
      (∃ flaws, load (Memory.zero : Ram) text.toList = .error flaws) ∨
        ∃ loaded fault, load (Memory.zero : Ram) text.toList = .ok loaded ∧
          ((choice.machine loaded.memory).run .unlimited).result = .error fault := by
  cases h with
  | unloaded hload => simp [Ending.exitCode, hload]
  | stopped hload hresult => simp [Ending.exitCode, hload, hresult]
  | faulted address reason hload hresult => simp [Ending.exitCode, hload, hresult]

/-- A call fails to load exactly if the program has flaws. -/
theorem Choice.Ended.failed_to_load_iff (h : choice.Ended text ending) :
    (∃ messages, ending = .failed (s!"Failed to load `{choice.program}`" :: messages)) ↔
      ∃ flaws, load (Memory.zero : Ram) text.toList = .error flaws := by
  cases h with
  | unloaded hload => exact ⟨fun _ => ⟨_, hload⟩, fun _ => ⟨_, rfl⟩⟩
  | stopped hload hresult => simp [hload]
  | faulted address reason hload hresult =>
    constructor
    · rintro ⟨messages, hmessages⟩
      have hfirst := (List.cons.inj (Ending.failed.inj hmessages)).1
      exact absurd hfirst.symm (loading_ne_fault choice.program address)
    · rintro ⟨flaws, hflaws⟩
      cases hload.symm.trans hflaws

/-- A call ends with a fault exactly if the program is loaded and its run faults. -/
theorem Choice.Ended.machine_fault_iff (h : choice.Ended text ending) :
    (∃ (address : String) (messages : List String),
        ending = .failed (s!"Machine fault at 0x{address}" :: messages)) ↔
      ∃ loaded fault, load (Memory.zero : Ram) text.toList = .ok loaded ∧
        ((choice.machine loaded.memory).run .unlimited).result = .error fault := by
  cases h with
  | unloaded hload =>
    constructor
    · rintro ⟨address, messages, hmessages⟩
      have hfirst := (List.cons.inj (Ending.failed.inj hmessages)).1
      exact absurd hfirst (loading_ne_fault choice.program address)
    · rintro ⟨loaded, fault, hloaded, -⟩
      cases hload.symm.trans hloaded
  | stopped hload hresult => simp [hload, hresult]
  | faulted address reason hload hresult =>
    exact ⟨fun _ => ⟨_, _, hload, hresult⟩, fun _ => ⟨address, _, rfl⟩⟩

end Ended

/-! ### What the options decide -/

/-- With other options for the same program a call ends in the same way. -/
theorem ending_of_same_program {choice' : Choice} (h : choice'.program = choice.program)
    (text : String) :
    (choice'.options.execute (.ok text.toUTF8)).2 =
      (choice.options.execute (.ok text.toUTF8)).2 := by
  rcases hload : load (Memory.zero : Ram) text.toList with flaws | loaded
  · rw [execute_of_flaws hload, execute_of_flaws hload, h]
  · rw [execute_of_loaded hload, execute_of_loaded hload]
    dsimp only
    rw [Choice.machine, Choice.machine, endingOf_traced, endingOf_traced]

/-- Whatever the options are, a program runs in the same way, but for the traces. -/
theorem Choice.watches (choice choice' : Choice) (memory : Ram) :
    Reply.Watches choice'.trace ((choice.machine memory).run .unlimited)
      ((choice'.machine memory).run .unlimited) :=
  (choice.machine memory).run_traced choice'.trace .unlimited

/-- **A call shows what loading and the run tell, and the options take only records away.**  Let the
arguments make a choice of options, and let `text` be what is in the program file.  Standard output
is the records of loading, then the dump if it is asked for, and then everything that the run of the
loaded program shows, traced or not as asked for; of all this the log level takes away the records
that are not severe enough, and nothing that is output.  The exit code is zero exactly if the
program is loaded and its run stops, and otherwise one.  Exactly if the program is not loaded, the
call fails to load it, with the number of its flaws; and exactly if it is loaded and its run faults,
the call ends with the address of the faulting cycle and the text of the fault.  So the ending is
the same with all options, and so is all that the run does and shows, but for traces. -/
theorem report_faithful (hreader : library.ReadsArguments) (hlogger : library.KeepsLog)
    (hprogram : choice.program ≠ "") (hargs : library.read args = library.read choice.arguments)
    (hfile : files choice.program = .ok text.toUTF8) :
    (∀ flaws, load (Memory.zero : Ram) text.toList = .error flaws →
      Shows choice.effective (loadingOf text) (library.call args files).stdout ∧
      (library.call args files).ending = .failed
        [s!"Failed to load `{choice.program}`",
          s!"program has {flaws.length} malformed line(s)"]) ∧
    (∀ loaded, load (Memory.zero : Ram) text.toList = .ok loaded →
      Shows choice.effective
        (loadingOf text ++ (if choice.dump then [.output loaded.memory.dump] else []) ++
          ((choice.machine loaded.memory).run .unlimited).journal)
        (library.call args files).stdout ∧
      (((choice.machine loaded.memory).run .unlimited).result = .ok () →
        (library.call args files).ending = .completed) ∧
      ∀ fault, ((choice.machine loaded.memory).run .unlimited).result = .error fault →
        ∃ moves last reason,
          (choice.machine loaded.memory).Course .unlimited moves last .unlimited ∧
          (last.step .unlimited).result = .error fault ∧ Tells fault reason ∧
          (library.call args files).ending =
            .failed [s!"Machine fault at 0x{hexits last.pc}", reason]) ∧
    ((library.call args files).ending.exitCode = 0 ↔
      ∃ loaded, load (Memory.zero : Ram) text.toList = .ok loaded ∧
        ((choice.machine loaded.memory).run .unlimited).result = .ok ()) ∧
    ((library.call args files).ending.exitCode = 1 ↔
      (∃ flaws, load (Memory.zero : Ram) text.toList = .error flaws) ∨
        ∃ loaded fault, load (Memory.zero : Ram) text.toList = .ok loaded ∧
          ((choice.machine loaded.memory).run .unlimited).result = .error fault) ∧
    ((∃ messages, (library.call args files).ending =
        .failed (s!"Failed to load `{choice.program}`" :: messages)) ↔
      ∃ flaws, load (Memory.zero : Ram) text.toList = .error flaws) ∧
    ((∃ (address : String) (messages : List String), (library.call args files).ending =
        .failed (s!"Machine fault at 0x{address}" :: messages)) ↔
      ∃ loaded fault, load (Memory.zero : Ram) text.toList = .ok loaded ∧
        ((choice.machine loaded.memory).run .unlimited).result = .error fault) ∧
    ∀ (args' : List String) (choice' : Choice), choice'.program = choice.program →
      library.read args' = library.read choice'.arguments →
      (library.call args' files).ending = (library.call args files).ending ∧
      ∀ memory,
        ((choice'.machine memory).run .unlimited).result =
          ((choice.machine memory).run .unlimited).result ∧
        ((choice'.machine memory).run .unlimited).machine =
          ((choice.machine memory).run .unlimited).machine.traced choice'.trace ∧
        ((choice'.machine memory).run .unlimited).journal.output =
          ((choice.machine memory).run .unlimited).journal.output ∧
        ((choice'.machine memory).run .unlimited).journal.untraced =
          ((choice.machine memory).run .unlimited).journal.untraced := by
  obtain ⟨console, hconsole, hcall⟩ := call_eq hreader hlogger hprogram hargs hfile
  have hended := choice.ended text
  rw [hcall]
  refine ⟨?_, ?_, hended.exitCode_eq_zero_iff, hended.exitCode_eq_one_iff,
    hended.failed_to_load_iff, hended.machine_fault_iff, ?_⟩
  · intro flaws hload
    rw [execute_of_flaws hload, summary]
    dsimp only
    exact ⟨hconsole.shows 0 _, rfl⟩
  · intro loaded hload
    rw [execute_of_loaded hload, Choice.dumped]
    dsimp only
    refine ⟨hconsole.shows 0 _, endingOf_of_ok, ?_⟩
    intro fault hfault
    exact endingOf_fault hfault
  · intro args' choice' hsame hargs'
    have hprogram' : choice'.program ≠ "" := hsame ▸ hprogram
    have hfile' : files choice'.program = .ok text.toUTF8 := (congrArg files hsame).trans hfile
    obtain ⟨_, -, hcall'⟩ := call_eq hreader hlogger hprogram' hargs' hfile'
    rw [hcall']
    refine ⟨ending_of_same_program hsame text, ?_⟩
    intro memory
    have hwatches := choice.watches choice' memory
    refine ⟨hwatches.result, hwatches.machine, ?_, hwatches.journal⟩
    rw [← Journal.output_untraced, hwatches.journal, Journal.output_untraced]

end Call

/-- A byte that is no opcode, and then print the stack pointer and stop. -/
def listing : String := "00000000\n01000111 # PRN R7\n111\n\n1\n"

/-- A place where every file holds `listing`. -/
def shelf : String → Program.Content := fun _ => .ok listing.toUTF8

/-- Without options the warning about the byte is shown, and then what is printed; no record of an
instruction is.  With traces and the log level off, the call ends in the same way. -/
theorem report_faithful_listing :
    (∃ loaded, load (Memory.zero : Ram) listing.toList = .ok loaded ∧
      (((Machine.boot loaded.memory).traced false).run .unlimited).journal.entries =
        [⟨.warn, "ls8::processor",
            "Unsupported operation 0b00000000 at 0x00, skipping 1 byte(s)"⟩,
          ⟨.debug, "ls8::processor::handlers", "PRN R7: 244"⟩,
          ⟨.debug, "ls8::processor::handlers", "HLT"⟩,
          ⟨.info, "ls8::processor", "Program halted. PC: 0x04"⟩] ∧
      Shows .warn
        (loadingOf listing ++ (((Machine.boot loaded.memory).traced false).run .unlimited).journal)
        ("WARN  [ls8::processor] Unsupported operation 0b00000000 at 0x00, skipping 1 byte(s)\n" ++
          "244\n").toList) ∧
    (Library.standIn.call ["p.ls8"] shelf).stdout =
      ("WARN  [ls8::processor] Unsupported operation 0b00000000 at 0x00, skipping 1 byte(s)\n" ++
        "244\n").toList ∧
    (Library.standIn.call ["p.ls8"] shelf).ending.exitCode = 0 ∧
    (Library.standIn.call ["-t", "p.ls8", "-l", "off"] shelf).ending.exitCode = 0 := by
  have hargs : Library.standIn.read ["p.ls8"] =
      Library.standIn.read (Choice.arguments ⟨"p.ls8", none, false, false⟩) := rfl
  have hargs' : Library.standIn.read ["-t", "p.ls8", "-l", "off"] =
      Library.standIn.read (Choice.arguments ⟨"p.ls8", some .off, true, false⟩) := rfl
  have hfile (path : String) : shelf path = .ok listing.toUTF8 := rfl
  have hstdout : (Library.standIn.call ["p.ls8"] shelf).stdout =
      ("WARN  [ls8::processor] Unsupported operation 0b00000000 at 0x00, skipping 1 byte(s)\n" ++
        "244\n").toList := by decide +kernel
  have hruns : (load (Memory.zero : Ram) listing.toList).map (fun loaded =>
      let reply := ((Machine.boot loaded.memory).traced false).run .unlimited
      (reply.result, reply.journal.entries)) =
        .ok (.ok (), [⟨.warn, "ls8::processor",
            "Unsupported operation 0b00000000 at 0x00, skipping 1 byte(s)"⟩,
          ⟨.debug, "ls8::processor::handlers", "PRN R7: 244"⟩,
          ⟨.debug, "ls8::processor::handlers", "HLT"⟩,
          ⟨.info, "ls8::processor", "Program halted. PC: 0x04"⟩]) := by decide +kernel
  rcases hload : load (Memory.zero : Ram) listing.toList with flaws | loaded
  · rw [hload] at hruns
    cases hruns
  · rw [hload] at hruns
    obtain ⟨hresult, hentries⟩ := Prod.mk.inj (Except.ok.inj hruns)
    obtain ⟨-, hshows, hexit, -, -, -, hsame⟩ :=
      report_faithful standIn_readsArguments standIn_keepsLog (by decide) hargs (hfile _)
    have hzero := hexit.mpr ⟨loaded, hload, hresult⟩
    refine ⟨⟨loaded, rfl, hentries, ?_⟩, hstdout, hzero, ?_⟩
    · have hshown := (hshows loaded hload).1
      rw [hstdout, if_neg Bool.false_ne_true, List.append_nil] at hshown
      exact hshown
    · rw [(hsame _ ⟨"p.ls8", some .off, true, false⟩ rfl hargs').1]
      exact hzero

end LS8.CommandLine
