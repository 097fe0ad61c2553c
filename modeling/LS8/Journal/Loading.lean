/-
LS8/Journal/Loading.lean

What loading a program file tells.  A file that gave no text is not recorded;
otherwise the records are those of loading the text, and `fileRecorded_eq` says
that they can be told from the result.
-/
import LS8.Program.File

namespace LS8.Program

variable {size : Nat}

/-- What loading a file into an empty memory of `size` cells records. -/
def fileRecorded (size : Nat) (content : Content) : List Record :=
  match content.text with
  | .error _ => []
  | .ok text => recorded (Memory.zero : Memory size) text

/-- The records of the result of loading a file. -/
def fileRecords : Except LoadFailure (Loaded size) → List Record
  | .ok loaded => loadRecords (.ok loaded)
  | .error (.malformed flaws) => loadRecords (.error flaws : Except _ (Loaded size))
  | .error (.unreadable _) => []

theorem fileRecorded_eq (content : Content) :
    fileRecorded size content = fileRecords (loadFile content : Except _ (Loaded size)) := by
  unfold fileRecorded loadFile
  rcases content.text with failure | text
  · rfl
  · dsimp only
    rw [recorded_eq]
    cases load (Memory.zero : Memory size) text <;> rfl

end LS8.Program
