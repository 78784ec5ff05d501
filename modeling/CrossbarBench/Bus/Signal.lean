import CrossbarBench.Bus.Word
import CrossbarBench.Fault

/-! The seven signals of a controller port. -/

namespace CrossbarBench

inductive Direction where
  | input
  | output
  deriving DecidableEq

inductive Signal where
  | request
  | ready
  | address
  | readData
  | writeEnable
  | byteEnables
  | writeData
  deriving DecidableEq

namespace Signal

/-- The number of wires, on a bus of `addressWidth` address bits. -/
def width (addressWidth : Nat) : Signal → Nat
  | request | ready | writeEnable => 1
  | byteEnables => 4
  | address => addressWidth
  | readData | writeData => 32

/-- Inputs are driven by the bench, outputs by the device. -/
def direction : Signal → Direction
  | ready | readData => .output
  | request | address | writeEnable | byteEnables | writeData => .input

/-- Whether only ports that can write have the signal. -/
def writeOnly : Signal → Bool
  | writeEnable | byteEnables | writeData => true
  | request | ready | address | readData => false

/-- A one for every wire, as far as a word reaches. -/
def mask (addressWidth : Nat) (signal : Signal) : Word :=
  (BitVec.allOnes (min (signal.width addressWidth) 32)).setWidth 32

/-- The mask of a signal that fits a word. -/
def checkedMask (addressWidth : Nat) (signal : Signal) : Except Fault Word :=
  if signal.width addressWidth ≤ 32 then .ok (signal.mask addressWidth)
  else .error (.signalWidth (signal.width addressWidth))

end Signal

end CrossbarBench
