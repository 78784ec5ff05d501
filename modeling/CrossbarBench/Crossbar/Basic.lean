import CrossbarBench.Bus.Device
import CrossbarBench.Crossbar.Memory

/-! The crossbar: three controllers and four memories. Inputs are plain state until an
evaluation, which makes the registered update when the clock has risen since the last
one and then settles the outputs. Port 1 cannot write. Two faults can be injected:
a mask over every read answer, and a ready without a request on one port. -/

namespace CrossbarBench

/-- The signal levels kept by a dump. -/
structure Sample where
  time : Nat
  clock : Bool
  request : Table 3 Bool
  ready : Table 3 Bool
  deriving DecidableEq

structure Crossbar where
  clock : Bool
  /-- The clock level at the last evaluation. -/
  lastClock : Bool
  /-- The level of the reset input; low resets. -/
  resetLevel : Bool
  controllers : Table 3 Inputs
  memories : Table 4 Memory
  ready : Table 3 Bool
  readData : Table 3 Word
  /-- The dumps so far, where they are kept. -/
  trace : Option (Array Sample)
  corruption : Word
  spurious : Option Port

namespace Crossbar

def initial : Crossbar where
  clock := false
  lastClock := false
  resetLevel := true
  controllers := Vector.replicate 3 Inputs.idle
  memories := Vector.replicate 4 Memory.initial
  ready := Vector.replicate 3 false
  readData := Vector.replicate 3 0
  trace := none
  corruption := 0
  spurious := none

/-- Keeps a sample for every dump from now on. -/
def withTrace (x : Crossbar) : Crossbar := { x with trace := some #[] }

/-- Flips the bits of a mask in every read answer. -/
def withCorruption (x : Crossbar) (mask : Word) : Crossbar := { x with corruption := mask }

/-- Raises ready on a port whenever its request is low. -/
def withSpuriousReady (x : Crossbar) (port : Port) : Crossbar := { x with spurious := some port }

/-- The word stored in a memory; offsets repeat every four. -/
def word (x : Crossbar) (peripheral offset : Nat) : Except Fault Word :=
  if h : peripheral < 4 then .ok ((x.memories.get ⟨peripheral, h⟩).words.get (Offset.wrap offset))
  else .error (.peripheral peripheral)

/-- The registered update. -/
def edge (x : Crossbar) : Crossbar :=
  { x with
    memories := Vector.ofFn fun p =>
      if x.resetLevel then (x.memories.get p).edge p x.controllers else (x.memories.get p).reset }

/-- The memory that a controller addresses answers its request. -/
def answered (x : Crossbar) (c : Port) : Bool :=
  let inputs := x.controllers.get c
  inputs.request && (x.memories.get inputs.target.1).answers c

def readyLevel (x : Crossbar) (c : Port) : Bool :=
  x.answered c || (x.spurious == some c && !(x.controllers.get c).request)

def readWord (x : Crossbar) (c : Port) : Word :=
  if x.answered c then
    let (p, o) := (x.controllers.get c).target
    (x.memories.get p).words.get o ^^^ x.corruption
  else 0

/-- Settles the outputs. -/
def settle (x : Crossbar) : Crossbar :=
  { x with ready := Vector.ofFn x.readyLevel, readData := Vector.ofFn x.readWord }

def eval (x : Crossbar) : Crossbar :=
  let y := if x.clock && !x.lastClock then x.edge else x
  settle { y with lastClock := y.clock }

/-- A delay for a peripheral that does not exist is ignored. -/
def setDelay (x : Crossbar) (peripheral delay : Nat) : Crossbar :=
  if h : peripheral < 4 then
    { x with memories := x.memories.modify ⟨peripheral, h⟩ ({ · with delay := delay }) }
  else x

def canWrite (port : Port) : Bool := port != Port.one

/-- The write signals of a port that cannot write read as zero. -/
def read (x : Crossbar) (port : Port) (signal : Signal) : Word :=
  let level (high : Bool) : Word := if high then 1 else 0
  let inputs := x.controllers.get port
  if signal.writeOnly && !canWrite port then 0
  else match signal with
    | .request => level inputs.request
    | .ready => level (x.ready.get port)
    | .address => inputs.address
    | .readData => x.readData.get port
    | .writeEnable => level inputs.writeEnable
    | .byteEnables => inputs.enables.setWidth 32
    | .writeData => inputs.data

/-- Values on the write signals of a port that cannot write are ignored. -/
def drive (x : Crossbar) (port : Port) (signal : Signal) (value : Word) : Crossbar :=
  if signal.writeOnly && !canWrite port then x
  else { x with controllers := x.controllers.modify port (·.latch value signal) }

def dump (x : Crossbar) (time : Nat) : Crossbar :=
  { x with trace := x.trace.map fun samples =>
      samples.push ⟨time, x.clock, x.controllers.map Inputs.request, x.ready⟩ }

instance : Device Crossbar where
  eval := eval
  clock := Crossbar.clock
  setClock x high := { x with clock := high }
  setReset x high := { x with resetLevel := high }
  setDelay := setDelay
  read := read
  drive := drive
  canWrite _ := canWrite
  addressWidth _ := AddressMap.standard.width
  dump := dump

@[simp] theorem device_eval (x : Crossbar) : Device.eval x = x.eval := rfl

@[simp] theorem device_clock (x : Crossbar) : Device.clock x = x.clock := rfl

@[simp] theorem device_setClock (x : Crossbar) (high : Bool) :
    Device.setClock x high = { x with clock := high } := rfl

@[simp] theorem device_setReset (x : Crossbar) (high : Bool) :
    Device.setReset x high = { x with resetLevel := high } := rfl

@[simp] theorem device_setDelay (x : Crossbar) (peripheral delay : Nat) :
    Device.setDelay x peripheral delay = x.setDelay peripheral delay := rfl

@[simp] theorem device_read (x : Crossbar) (port : Port) (signal : Signal) :
    Device.read x port signal = x.read port signal := rfl

@[simp] theorem device_drive (x : Crossbar) (port : Port) (signal : Signal) (value : Word) :
    Device.drive x port signal value = x.drive port signal value := rfl

@[simp] theorem device_canWrite (x : Crossbar) (port : Port) :
    Device.canWrite x port = canWrite port := rfl

@[simp] theorem device_addressWidth (x : Crossbar) :
    Device.addressWidth x = AddressMap.standard.width := rfl

@[simp] theorem device_dump (x : Crossbar) (time : Nat) : Device.dump x time = x.dump time := rfl

end Crossbar

end CrossbarBench
