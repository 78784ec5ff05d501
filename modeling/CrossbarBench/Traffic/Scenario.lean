import CrossbarBench.Bus.Port
import CrossbarBench.Table
import CrossbarBench.Traffic.Slot

/-! Scenarios: response delays, an iteration limit and a sequence of slots for each port.
A scenario grows from a blank one by padding ports with idle slots and then placing
requests into slots that exist. -/

namespace CrossbarBench

structure Scenario where
  name : String
  /-- The response delay of each peripheral. -/
  delays : Table 4 Nat
  limit : Nat
  /-- The slots of each port, taken front to back. -/
  sequences : Table 3 (List Slot)
  deriving DecidableEq

namespace Scenario

def blank (name : String) : Scenario where
  name := name
  delays := Vector.replicate 4 0
  limit := 100
  sequences := Vector.replicate 3 []

def withDelays (s : Scenario) (delays : Table 4 Nat) : Scenario := { s with delays := delays }

def withLimit (s : Scenario) (limit : Nat) : Scenario := { s with limit := limit }

def padPort (length : Nat) (s : Scenario) (number : Nat) : Except Fault Scenario := do
  let port ← Port.ofNumber number
  let padding ← Slot.checkedIdle length
  pure { s with sequences := s.sequences.modify port (· ++ padding) }

/-- Adds idle slots at the end of each listed port. -/
def padIdle (s : Scenario) (numbers : List Nat) (length : Nat) : Except Fault Scenario :=
  numbers.foldlM (padPort length) s

/-- Puts a request into a slot that exists. -/
def place (s : Scenario) (number slot : Nat) (request : Request) : Except Fault Scenario := do
  let port ← Port.ofNumber number
  let slots := s.sequences.get port
  if slot < slots.length then
    pure { s with sequences := s.sequences.put port (slots.set slot (some request)) }
  else
    throw (.slot number slot slots.length)

/-- Puts the same request into the same slot of each listed port. -/
def placeEach (s : Scenario) (numbers : List Nat) (slot : Nat) (request : Request) :
    Except Fault Scenario :=
  numbers.foldlM (fun s number => s.place number slot request) s

end Scenario

end CrossbarBench
