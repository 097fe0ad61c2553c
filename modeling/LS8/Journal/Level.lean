/-
LS8/Journal/Level.lean

How severe a record of the journal is, and which part of the program it comes
from.
-/
namespace LS8

/-- How severe a record is, the most severe first. -/
inductive Level where
  | error
  | warn
  | info
  | debug
  | trace
  deriving DecidableEq, Repr

namespace Level

/-- The name of a level in a record. -/
def label : Level → String
  | .error => "ERROR"
  | .warn => "WARN"
  | .info => "INFO"
  | .debug => "DEBUG"
  | .trace => "TRACE"

/-- The place of a level, from the most severe on. -/
def rank : Level → Nat
  | .error => 1
  | .warn => 2
  | .info => 3
  | .debug => 4
  | .trace => 5

end Level

/-- The part of the program that a record comes from. -/
inductive Component where
  | loader
  | machine
  | instructions
  | arithmetic
  deriving DecidableEq, Repr

/-- The name of a component in a record. -/
def Component.name : Component → String
  | .loader => "ls8::memory::parse"
  | .machine => "ls8::processor"
  | .instructions => "ls8::processor::handlers"
  | .arithmetic => "ls8::alu"

end LS8
