/-
LS8/Journal/Event.lean

Records and printed output interleave, so what a run shows is a list of events
of both kinds.
-/
import LS8.Journal.Record

namespace LS8

/-- What a run shows: text that its sink took, and records. -/
inductive Event where
  | output (text : List Char)
  | record (record : Record)
  deriving DecidableEq, Repr

/-- Everything a run shows, in order. -/
abbrev Journal := List Event

namespace Journal

/-- The output in a journal. -/
def output (journal : Journal) : List Char :=
  journal.flatMap fun
    | .output text => text
    | .record _ => []

/-- The records in a journal. -/
def records (journal : Journal) : List Record :=
  journal.filterMap fun
    | .output _ => none
    | .record record => some record

/-- What a logger is given in the course of a journal. -/
def entries (journal : Journal) : List Entry := journal.records.map Record.entry

@[simp] theorem output_append (j k : Journal) : output (j ++ k) = output j ++ output k :=
  List.flatMap_append

@[simp] theorem records_append (j k : Journal) : records (j ++ k) = records j ++ records k :=
  List.filterMap_append

@[simp] theorem entries_append (j k : Journal) : entries (j ++ k) = entries j ++ entries k := by
  rw [entries, records_append, List.map_append]
  rfl

end Journal

end LS8
