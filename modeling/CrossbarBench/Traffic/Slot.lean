import CrossbarBench.Bus.Word
import CrossbarBench.Fault

/-! What a port is asked to do: a sequence of slots, each idle or one request. -/

namespace CrossbarBench

/-- Byte enables and data mean nothing in a read. -/
structure Request where
  address : Word
  isWrite : Bool
  enables : ByteEnables
  data : Word
  deriving DecidableEq

namespace Request

def read (address : Word) : Request := ⟨address, false, 0, 0⟩

/-- A write keeps the four enables that select a lane. -/
def write (address : Word) (enables : ByteEnables) (data : Word) : Request :=
  ⟨address, true, enables &&& 0xF, data⟩

end Request

/-- An idle slot holds no request. -/
abbrev Slot := Option Request

namespace Slot

/-- A sequence of idle slots. -/
def idle (length : Nat) : List Slot := List.replicate length none

/-- The most slots that memory can address: twelve bytes each, in all below 2 to the 63rd. -/
def capacity : Nat := 768614336404564650

/-- A sequence of idle slots that memory can address. -/
def checkedIdle (length : Nat) : Except Fault (List Slot) :=
  if length ≤ capacity then .ok (idle length) else .error (.sequenceLength length)

@[simp] theorem length_idle (n : Nat) : (idle n).length = n := List.length_replicate

end Slot

end CrossbarBench
