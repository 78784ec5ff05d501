import CrossbarBench.Bus.Device
import CrossbarBench.Log.Record

/-! The testbench drives the clock of a device and keeps the time and the log. A cycle
has two landing points: the stimulus phase right after the rising edge, where inputs may
change, and the response phase right after the falling edge, where outputs are sampled.
A rising half cycle takes two units of time and a falling one eight. -/

namespace CrossbarBench

structure Testbench (σ : Type) where
  device : σ
  time : Nat
  records : Array LogRecord

namespace Testbench

variable {σ : Type}

/-- The bench after a change of its device alone. -/
def onDevice (b : Testbench σ) (f : σ → σ) : Testbench σ := { b with device := f b.device }

def emit (b : Testbench σ) (record : LogRecord) : Testbench σ :=
  { b with records := b.records.push record }

/-- Logs a message at the present time. -/
def log (b : Testbench σ) (severity : Severity) (message : String) : Testbench σ :=
  b.emit ⟨severity, b.time, message, []⟩

def info (b : Testbench σ) (message : String) : Testbench σ := b.log .info message

def debug (b : Testbench σ) (message : String) : Testbench σ := b.log .debug message

variable [Device σ]

/-- A bench around a device, which is evaluated and dumped at time zero. -/
def new (device : σ) : Testbench σ := ⟨Device.dump (Device.eval device) 0, 1, #[]⟩

/-- Evaluates the device, dumps it and lets time pass. -/
def sample (b : Testbench σ) (passing : Nat) : Testbench σ :=
  { b with device := Device.dump (Device.eval b.device) b.time, time := b.time + passing }

/-- Samples before and after the clock is set to a level. -/
def halfCycle (b : Testbench σ) (high : Bool) (passing : Nat) : Testbench σ :=
  ((b.sample passing).onDevice (Device.setClock · high)).sample passing

theorem time_halfCycle (b : Testbench σ) (high : Bool) (passing : Nat) :
    (b.halfCycle high passing).time = b.time + passing + passing := rfl

def rise (b : Testbench σ) : Testbench σ := b.halfCycle true 1

def fall (b : Testbench σ) : Testbench σ := b.halfCycle false 4

/-- Lands just after a rising edge. Time always advances: with the clock high already a
falling half cycle comes first. -/
def toStimulus (b : Testbench σ) : Testbench σ :=
  (if Device.clock b.device then b.fall else b).rise

/-- Lands just after a falling edge. Time always advances: with the clock low already a
rising half cycle comes first. -/
def toResponse (b : Testbench σ) : Testbench σ :=
  (if Device.clock b.device then b else b.rise).fall

/-- One full clock cycle, back to the phase it started in. -/
def cycle (b : Testbench σ) : Testbench σ :=
  if Device.clock b.device then b.toResponse.toStimulus else b.toStimulus.toResponse

def cycles : Nat → Testbench σ → Testbench σ
  | 0, b => b
  | n + 1, b => cycles n b.cycle

/-- Holds reset low for ten cycles and leaves ten more for the design to settle. -/
def reset (b : Testbench σ) : Testbench σ :=
  let b := cycles 10 (b.toStimulus.onDevice (Device.setReset · false))
  cycles 10 (b.onDevice (Device.setReset · true))

theorem records_toStimulus (b : Testbench σ) : b.toStimulus.records = b.records := by
  unfold toStimulus
  split <;> rfl

theorem records_toResponse (b : Testbench σ) : b.toResponse.records = b.records := by
  unfold toResponse
  split <;> rfl

theorem records_cycle (b : Testbench σ) : b.cycle.records = b.records := by
  unfold cycle
  split <;> simp [records_toStimulus, records_toResponse]

theorem records_cycles (n : Nat) (b : Testbench σ) : (cycles n b).records = b.records := by
  induction n generalizing b with
  | zero => rfl
  | succ n ih => rw [cycles, ih, records_cycle]

/-- The log has no part in driving the clock. -/
theorem toStimulus_congr {b b' : Testbench σ} (hd : b.device = b'.device)
    (ht : b.time = b'.time) :
    b.toStimulus.device = b'.toStimulus.device ∧ b.toStimulus.time = b'.toStimulus.time := by
  cases b
  cases b'
  cases hd
  cases ht
  unfold toStimulus
  split <;> exact ⟨rfl, rfl⟩

theorem toResponse_congr {b b' : Testbench σ} (hd : b.device = b'.device)
    (ht : b.time = b'.time) :
    b.toResponse.device = b'.toResponse.device ∧ b.toResponse.time = b'.toResponse.time := by
  cases b
  cases b'
  cases hd
  cases ht
  unfold toResponse
  split <;> exact ⟨rfl, rfl⟩

theorem records_reset (b : Testbench σ) : b.reset.records = b.records := by
  simp only [reset, records_cycles, onDevice, records_toStimulus]

end Testbench

end CrossbarBench
