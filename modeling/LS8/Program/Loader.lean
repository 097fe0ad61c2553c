/-
LS8/Program/Loader.lean

Loading a program: the bytes of its lines go into memory, in order, from
address 0 on.  Blank lines take no address and neither do malformed ones.
Every malformed line is reported, and of the bytes for which memory has no room
the first.  A program with a flaw is not loaded at all.

Loading is recorded line by line.  `recorded_eq` says that the records can also
be told from the result alone.
-/
import LS8.Journal.Record
import LS8.Memory.Basic
import LS8.Text.Line

namespace LS8.Program

variable {size : Nat}

/-- How far loading has come. -/
structure Loading (size : Nat) where
  /-- The number of the line taken last. -/
  line : Nat
  /-- The address of the next byte; it goes on counting past the end of memory. -/
  next : Nat
  /-- Was a byte reported for which memory has no room? -/
  overflowed : Bool
  memory : Memory size
  /-- The flaws so far, in line order. -/
  flaws : Array Flaw
  /-- What was recorded so far. -/
  records : Array Record

namespace Loading

/-- Before the first line. -/
def start (m : Memory size) : Loading size := ⟨0, 0, false, m, #[], #[]⟩

/-- Report and record a flaw in the line taken last. -/
def report (l : Loading size) (cause : Cause) : Loading size :=
  { l with
    flaws := l.flaws.push ⟨l.line, cause⟩
    records := l.records.push (.flaw ⟨l.line, cause⟩) }

/-- Take the next byte.  Only the first byte past the end is a flaw. -/
def takeByte (l : Loading size) (value : Byte) : Loading size :=
  let l' : Loading size := { l with next := l.next + 1 }
  if l.next < size then { l' with memory := l.memory.place l.next value }
  else if l.overflowed then l'
  else report { l' with overflowed := true } (.tooLarge ⟨l.next, size⟩)

/-- Take the next line. -/
def takeLine (l : Loading size) (text : List Char) : Loading size :=
  let l' : Loading size := { l with line := l.line + 1 }
  match Line.read text with
  | .blank => l'
  | .byte value => l'.takeByte value
  | .malformed reason => l'.report (.invalidBinary reason)

/-- Take all lines of a text. -/
def takeText (l : Loading size) (text : List Char) : Loading size :=
  (Text.lines text).foldl takeLine l

end Loading

/-- A program in memory. -/
structure Loaded (size : Nat) where
  memory : Memory size
  /-- How many bytes the program has. -/
  count : Nat

/-- The result of loading: the program, unless there are flaws. -/
def Loading.finish (l : Loading size) : Except (List Flaw) (Loaded size) :=
  if l.flaws.isEmpty then .ok ⟨l.memory, l.next⟩ else .error l.flaws.toList

/-- All records of loading.  A program without flaws is recorded once it is loaded. -/
def Loading.recorded (l : Loading size) : List Record :=
  if l.flaws.isEmpty then l.records.toList ++ [.loaded l.next] else l.records.toList

/-- Load a program over the memory `m`. -/
def load (m : Memory size) (text : List Char) : Except (List Flaw) (Loaded size) :=
  ((Loading.start m).takeText text).finish

/-- What loading a program over the memory `m` records. -/
def recorded (m : Memory size) (text : List Char) : List Record :=
  ((Loading.start m).takeText text).recorded

/-! ### The records -/

/-- The records of a result: one for every flaw, or a single one with the length of the program. -/
def loadRecords : Except (List Flaw) (Loaded size) → List Record
  | .ok loaded => [.loaded loaded.count]
  | .error flaws => flaws.map .flaw

namespace Loading

/-- While lines are taken, the records are those of the flaws. -/
def Told (l : Loading size) : Prop := l.records.toList = l.flaws.toList.map .flaw

theorem Told.report {l : Loading size} (h : l.Told) (cause : Cause) : (l.report cause).Told := by
  simpa [Told, Loading.report] using h

theorem Told.takeByte {l : Loading size} (h : l.Told) (value : Byte) :
    (l.takeByte value).Told := by
  unfold Loading.takeByte
  dsimp only
  split
  · exact h
  · split
    · exact h
    · exact Told.report (l := { l with next := l.next + 1, overflowed := true }) h _

theorem Told.takeLine {l : Loading size} (h : l.Told) (text : List Char) :
    (l.takeLine text).Told := by
  have h' : Told { l with line := l.line + 1 } := h
  unfold Loading.takeLine
  dsimp only
  split
  · exact h'
  · exact h'.takeByte _
  · exact h'.report _

theorem Told.takeText {l : Loading size} (h : l.Told) (text : List Char) :
    (l.takeText text).Told := by
  unfold Loading.takeText
  generalize Text.lines text = lines
  induction lines generalizing l with
  | nil => exact h
  | cons line rest ih => exact ih (h.takeLine line)

end Loading

/-- What is recorded line by line is told by the result. -/
theorem recorded_eq (m : Memory size) (text : List Char) :
    recorded m text = loadRecords (load m text) := by
  have h : ((Loading.start m).takeText text).Told :=
    Loading.Told.takeText (show (Loading.start m).Told from rfl) text
  unfold recorded load Loading.recorded Loading.finish
  split
  · next he =>
    rw [h, Array.isEmpty_iff.mp he]
    rfl
  · exact h

end LS8.Program
