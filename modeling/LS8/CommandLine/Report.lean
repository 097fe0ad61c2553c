/-
LS8/CommandLine/Report.lean

The program with stand-ins for the libraries: `parse` for the one that reads
arguments, and a logger that writes no time.  They do what the documentation of
the libraries says (`standIn_readsArguments`, `standIn_keepsLog`), so that the
program can be run by itself.
-/
import LS8.CommandLine.Call
import LS8.CommandLine.Reading

namespace LS8.CommandLine

/-- A logger that writes no time in front of its lines. -/
def Console.plain (filter : LevelFilter) : Console where
  admits level := level.rank ≤ filter.rank
  line _ entry :=
    entry.level.label.toList.rightpad 5 ' ' ++ s!" [{entry.target}] {entry.text}\n".toList

/-- The stand-ins. -/
def Library.standIn : Library where
  read := parse
  log filter := .ok (.plain filter)

/-- The report of a call, with the content of the program file if one is to be run. -/
def report (request : Except Misuse Request) (files : String → Program.Content) : Report :=
  Library.standIn.report request files

/-! ### The stand-ins do what is documented -/

/-- All arguments of a choice are taken, and the program file is still to be checked. -/
theorem arguments_of_choice (choice : Choice) :
    Reading.start.arguments choice.arguments =
      .ok ⟨none, choice.level?, choice.trace, choice.dump, .program choice.program⟩ := by
  obtain ⟨program, level?, trace, dump⟩ := choice
  rcases level? with - | (- | - | - | - | - | -) <;> cases trace <;> cases dump <;> rfl

theorem standIn_readsArguments : Library.standIn.ReadsArguments := by
  intro choice hprogram
  have hpath : choice.program.isEmpty = false := by
    rw [← Bool.not_eq_true, String.isEmpty_iff]
    exact hprogram
  -- the one argument that is left to check is the program file
  have hsettle : Reading.settle
      ⟨none, choice.level?, choice.trace, choice.dump, .program choice.program⟩ =
        .ok ⟨some choice.program, choice.level?, choice.trace, choice.dump, .nothing⟩ := by
    simp only [Reading.settle, hpath]
    rfl
  have hread : Reading.start.arguments choice.arguments >>= Reading.finish =
      .ok choice.options := by
    rw [arguments_of_choice]
    show Reading.finish _ = _
    rw [Reading.finish, hsettle]
    rfl
  show parse choice.arguments = _
  rw [parse, hread]

theorem standIn_keepsLog : Library.standIn.KeepsLog := by
  intro filter
  refine ⟨.plain filter, rfl, ?_, ?_⟩
  · intro level
    exact decide_eq_true_iff
  · intro moment entry
    exact ⟨[], List.not_mem_nil, rfl⟩

end LS8.CommandLine
