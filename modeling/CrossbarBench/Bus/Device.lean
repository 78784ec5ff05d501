import CrossbarBench.Bus.Port
import CrossbarBench.Bus.Signal

/-! What a bench needs of a device under test, and access to one controller port of it.
A device is a state with total operations and no promise about its answers; a bench has
to stand any of them. Port access cuts every value to the wires of its signal, in both
directions, and refuses the write signals where a port cannot write. The checked access
is for a bus of unknown width; one that can be decoded always fits a word. -/

namespace CrossbarBench

class Device (σ : Type) where
  /-- Settles the device against its present inputs. -/
  eval : σ → σ
  clock : σ → Bool
  setClock : σ → Bool → σ
  /-- Sets the level of the reset input, which acts when low. -/
  setReset : σ → Bool → σ
  /-- Sets the response delay of a peripheral, which is for the device to interpret. -/
  setDelay : σ → Nat → Nat → σ
  read : σ → Port → Signal → Word
  drive : σ → Port → Signal → Word → σ
  canWrite : σ → Port → Bool
  addressWidth : σ → Nat
  /-- Captures the present signal values at a time. -/
  dump : σ → Nat → σ

namespace Device

variable {σ : Type} [Device σ]

/-- The value on the wires of a signal. -/
def sense (d : σ) (port : Port) (signal : Signal) : Word :=
  read d port signal &&& signal.mask (addressWidth d)

/-- The value on the wires of a signal that fits a word. -/
def checkedSense (d : σ) (port : Port) (signal : Signal) : Except Fault Word := do
  let mask ← signal.checkedMask (addressWidth d)
  pure (read d port signal &&& mask)

/-- Puts a value on the wires of a signal. -/
def put (d : σ) (port : Port) (signal : Signal) (value : Word) : σ :=
  drive d port signal (value &&& signal.mask (addressWidth d))

/-- Puts a value on the wires of a signal that fits a word. -/
def checkedPut (d : σ) (port : Port) (signal : Signal) (value : Word) : Except Fault σ := do
  let mask ← signal.checkedMask (addressWidth d)
  pure (drive d port signal (value &&& mask))

theorem checkedSense_of_le (d : σ) (port : Port) (signal : Signal)
    (h : signal.width (addressWidth d) ≤ 32) :
    checkedSense d port signal = .ok (sense d port signal) := by
  simp only [checkedSense, Signal.checkedMask, if_pos h]
  rfl

theorem checkedPut_of_le (d : σ) (port : Port) (signal : Signal) (value : Word)
    (h : signal.width (addressWidth d) ≤ 32) :
    checkedPut d port signal value = .ok (put d port signal value) := by
  simp only [checkedPut, Signal.checkedMask, if_pos h]
  rfl

def request (d : σ) (port : Port) : Bool := sense d port .request != 0

def ready (d : σ) (port : Port) : Bool := sense d port .ready != 0

def address (d : σ) (port : Port) : Word := sense d port .address

def readData (d : σ) (port : Port) : Word := sense d port .readData

def writeEnable? (d : σ) (port : Port) : Option Bool :=
  if canWrite d port then some (sense d port .writeEnable != 0) else none

def byteEnables? (d : σ) (port : Port) : Option ByteEnables :=
  if canWrite d port then some ((sense d port .byteEnables).setWidth 8) else none

def writeData? (d : σ) (port : Port) : Option Word :=
  if canWrite d port then some (sense d port .writeData) else none

def setRequest (d : σ) (port : Port) (high : Bool) : σ :=
  put d port .request (if high then 1 else 0)

def setAddress (d : σ) (port : Port) (address : Word) : σ := put d port .address address

/-- Nothing if the port cannot write. -/
def setWriteEnable? (d : σ) (port : Port) (high : Bool) : Option σ :=
  if canWrite d port then some (put d port .writeEnable (if high then 1 else 0)) else none

/-- Raises write enable, then drives data and byte enables. Nothing if the port cannot write. -/
def driveWrite? (d : σ) (port : Port) (enables : ByteEnables) (data : Word) : Option σ :=
  (setWriteEnable? d port true).map fun d =>
    put (put d port .writeData data) port .byteEnables (enables.setWidth 32)

end Device

end CrossbarBench
