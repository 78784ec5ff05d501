/-! The mistakes a bench can be asked to make: a port, slot, scenario or peripheral that
does not exist, a bus that cannot be decoded or masked, a sequence or a limit too large
to hold. What a device does wrong is never a fault; it is a failure in a report. -/

namespace CrossbarBench

inductive Fault where
  | controllerPort (number : Nat)
  | slot (port slot length : Nat)
  | scenario (name : String)
  | addressWidth (width : Nat)
  | peripheral (index : Nat)
  /-- A signal wider than a word. -/
  | signalWidth (width : Nat)
  /-- More slots than memory can address. -/
  | sequenceLength (length : Nat)
  /-- An iteration limit whose computation leaves 64 bits. -/
  | limitProduct (product : Nat)
  deriving DecidableEq

namespace Fault

def message : Fault → String
  | .controllerPort n => s!"illegal controller port {n}"
  | .slot port i length => s!"port {port}: slot {i} is outside a sequence of {length} slots"
  | .scenario name => s!"unknown scenario `{name}`"
  | .addressWidth _ => "word address width must leave room for the peripheral select bits"
  | .peripheral i => s!"index out of bounds: the len is 4 but the index is {i}"
  | .signalWidth _ => "attempt to shift left with overflow"
  | .sequenceLength _ => "capacity overflow"
  | .limitProduct _ => "attempt to multiply with overflow"

/-- Whether the fault breaks a program off; of any other it can tell its user. -/
def fatal : Fault → Bool
  | .controllerPort _ | .slot .. | .scenario _ => false
  | .addressWidth _ | .peripheral _ | .signalWidth _ | .sequenceLength _ | .limitProduct _ => true

end Fault

end CrossbarBench
