/-
LS8.lean

The LS-8, a computer with eight byte registers and 256 cells of memory: its
instruction set, its program files, its machine and its command line.
-/
import LS8.Instruction
import LS8.Arithmetic
import LS8.Memory.Dump
import LS8.Machine.Effect
import LS8.Machine.Run
import LS8.CommandLine.Report
import LS8.Main
import LS8.Proofs.Effect
import LS8.Proofs.Rules
import LS8.Proofs.Cycle
import LS8.Proofs.Atomicity
import LS8.Proofs.Assembly
import LS8.Proofs.Brackets
import LS8.Proofs.Stack
import LS8.Proofs.Loading
import LS8.Proofs.Faults
import LS8.Proofs.Progress
import LS8.Proofs.Output
import LS8.Proofs.Agreement
import LS8.Proofs.Grammar
import LS8.Proofs.Sweep
import LS8.Proofs.Journal
import LS8.Proofs.Entries
import LS8.Proofs.Replay
import LS8.Proofs.Tracing
import LS8.Proofs.Report
import LS8.Proofs.Frame
import LS8.Proofs.Writing
import LS8.Proofs.Digits
import LS8.Proofs.Snapshot
import LS8.Proofs.Dump
import LS8.Proofs.MissingCells
import LS8.Proofs.Edits
import LS8.Proofs.Residues
import LS8.Proofs.Halting
import LS8.Proofs.Sums
