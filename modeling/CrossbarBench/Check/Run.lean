import CrossbarBench.Bench.Testbench
import CrossbarBench.Check.Report
import CrossbarBench.Traffic.Scenario

/-! One run of a scenario on a testbench. Every iteration feeds the ports that are free
in the stimulus phase, then looks at the device in the response phase: ready without a
request is a protocol violation, ready with a request a handshake. Handshakes retire in
port order, so a write on a lower port is visible to a read of the same iteration on a
higher one. The run ends when every port was found with no slot left, or at the limit. -/

namespace CrossbarBench

/-- What a port shows while request and ready are both high. -/
structure Handshake where
  address : Word
  isWrite : Bool
  enables : ByteEnables
  writeData : Word
  readData : Word

namespace Device

variable {σ : Type} [Device σ]

def handshake? (d : σ) (port : Port) : Option Handshake :=
  if request d port && ready d port then
    some {
      address := address d port
      isWrite := (writeEnable? d port).getD false
      enables := (byteEnables? d port).getD 0
      writeData := (writeData? d port).getD 0
      readData := readData d port }
  else none

/-- Ready is high although nothing is requested. -/
def readyUnasked (d : σ) (port : Port) : Bool := !request d port && ready d port

/-- Puts a request onto a port; write signals only where the port has them. -/
def issue (d : σ) (port : Port) (q : Request) : σ :=
  let d := setAddress (setRequest d port true) port q.address
  let driven :=
    if q.isWrite then driveWrite? d port q.enables q.data else setWriteEnable? d port false
  driven.getD d

end Device

/-- The bench's side of one port. -/
structure Requester where
  slots : List Slot
  /-- A request is raised and not yet acknowledged. -/
  awaiting : Bool
  /-- The sequence was found empty with nothing awaited. -/
  drained : Bool
  deriving DecidableEq

structure Run (σ : Type) where
  bench : Testbench σ
  requesters : Table 3 Requester
  shadow : Shadow
  failures : Array Failure
  completions : Array Completion

namespace Run

variable {σ : Type}

def withBench (r : Run σ) (f : Testbench σ → Testbench σ) : Run σ := { r with bench := f r.bench }

def withRequester (r : Run σ) (port : Port) (f : Requester → Requester) : Run σ :=
  { r with requesters := r.requesters.modify port f }

/-- Keeps a failure and logs it. -/
def fail (r : Run σ) (f : Failure) : Run σ :=
  { r with failures := r.failures.push f, bench := r.bench.emit f.record }

/-- Keeps a completion and logs it with the word that the shadow memory holds there. -/
def complete (r : Run σ) (c : Completion) (word : Word) : Run σ :=
  { r with completions := r.completions.push c, bench := r.bench.emit (c.record r.bench.time word) }

/-- A write goes into the shadow memory; a read is compared with it. -/
def retire (r : Run σ) (iteration : Nat) (port : Port) (h : Handshake) : Run σ :=
  let r := r.withRequester port fun q => { q with awaiting := false }
  if h.isWrite then
    let (word, shadow) := r.shadow.write h.address h.enables h.writeData
    complete { r with shadow := shadow }
      ⟨iteration, port, h.address, .write h.enables h.writeData⟩ word
  else
    let expected := r.shadow.expected h.address
    let r := if h.readData = expected then r else
      r.fail ⟨.dataMismatch h.address expected h.readData, r.bench.time, iteration, some port⟩
    r.complete ⟨iteration, port, h.address, .read h.readData⟩ expected

def allDrained (r : Run σ) : Bool := r.requesters.toList.all Requester.drained

/-- The record of a request, with the address as it was asked for. -/
def issueRecord (port : Port) (q : Request) (time : Nat) : LogRecord :=
  ⟨.debug, time, "Request issued", [("port", toString port.number),
    ("addr", Text.hex q.address.toNat), ("write", toString q.isWrite)]⟩

variable [Device σ]

/-- Gives a port its next slot unless it awaits an answer. An idle slot, like an empty
sequence, leaves its request low. -/
def feed (r : Run σ) (port : Port) : Run σ :=
  let q := r.requesters.get port
  if q.awaiting then r
  else match q.slots with
    | [] =>
      (r.withRequester port fun q => { q with drained := true }).withBench
        (·.onDevice (Device.setRequest · port false))
    | none :: rest =>
      (r.withRequester port fun q => { q with slots := rest }).withBench
        (·.onDevice (Device.setRequest · port false))
    | some request :: rest =>
      (r.withRequester port fun q => { q with slots := rest, awaiting := true }).withBench fun b =>
        (b.onDevice (Device.issue · port request)).emit (issueRecord port request b.time)

def checkIdle (iteration : Nat) (r : Run σ) (port : Port) : Run σ :=
  if Device.readyUnasked r.bench.device port then
    r.fail ⟨.protocolViolation, r.bench.time, iteration, some port⟩
  else r

def collect (iteration : Nat) (r : Run σ) (port : Port) : Run σ :=
  match Device.handshake? r.bench.device port with
  | none => r
  | some h => r.retire iteration port h

/-- The stimulus phase of an iteration. -/
def stimulate (r : Run σ) : Run σ := Port.all.foldl feed (r.withBench Testbench.toStimulus)

/-- The response phase of an iteration. -/
def respond (iteration : Nat) (r : Run σ) : Run σ :=
  Port.all.foldl (collect iteration)
    (Port.all.foldl (checkIdle iteration) (r.withBench Testbench.toResponse))

def iterate (iteration : Nat) (r : Run σ) : Run σ := r.stimulate.respond iteration

/-- Runs the iterations that are left below the limit, the next of which is `iteration`. -/
def loop (limit : Nat) : (left iteration : Nat) → Run σ → Outcome × Nat × Run σ
  | 0, iteration, r => (.aborted, iteration, r.fail ⟨.timeout limit, r.bench.time, iteration, none⟩)
  | left + 1, iteration, r =>
    let r := r.iterate iteration
    if r.allDrained then (.done, iteration, r) else loop limit left (iteration + 1) r

/-- A run before its first iteration. -/
def start (map : AddressMap) (bench : Testbench σ) (sequences : Table 3 (List Slot)) : Run σ where
  bench := bench
  requesters := sequences.map fun slots => ⟨slots, false, false⟩
  shadow := Shadow.fresh map
  failures := #[]
  completions := #[]

end Run

namespace Testbench

variable {σ : Type} [Device σ]

/-- Sets the delays, withdraws every request and resets the device. -/
def prepare (b : Testbench σ) (delays : Table 4 Nat) : Testbench σ :=
  let set (d : σ) (p : Peripheral) : σ := Device.setDelay d p.val (delays.get p)
  let withdraw (d : σ) (port : Port) : σ := Device.setRequest d port false
  (b.onDevice fun d => Port.all.foldl withdraw ((List.finRange 4).foldl set d)).reset

/-- What setting a delay and withdrawing a request keep holds of the device that is reset. -/
theorem prepare_eq_reset {Q : σ → Prop}
    (setDelay : ∀ d peripheral delay, Q d → Q (Device.setDelay d peripheral delay))
    (withdraw : ∀ d port, Q d → Q (Device.setRequest d port false))
    {b : Testbench σ} (hb : Q b.device) (delays : Table 4 Nat) :
    ∃ d, Q d ∧ b.prepare delays = { b with device := d }.reset := by
  have hset : ∀ (l : List Peripheral) (d : σ), Q d →
      Q (l.foldl (fun d p => Device.setDelay d p.val (delays.get p)) d) := by
    intro l
    induction l with
    | nil => exact fun _ hd => hd
    | cons p l ih => exact fun d hd => ih _ (setDelay d _ _ hd)
  have hlow : ∀ (l : List Port) (d : σ), Q d →
      Q (l.foldl (fun d port => Device.setRequest d port false) d) := by
    intro l
    induction l with
    | nil => exact fun _ hd => hd
    | cons port l ih => exact fun d hd => ih _ (withdraw d _ hd)
  exact ⟨_, hlow Port.all _ (hset (List.finRange 4) b.device hb), rfl⟩

/-- Runs a scenario from reset until every sequence has drained or the limit is reached.
The limit counts the iteration that reaches it, so a limit of one runs nothing. -/
def perform (b : Testbench σ) (s : Scenario) : Except Fault (Report × Testbench σ) := do
  let map ← AddressMap.ofWidth (Device.addressWidth b.device)
  let (outcome, iterations, r) :=
    Run.loop s.limit (s.limit - 1) 1 (Run.start map (b.prepare s.delays) s.sequences)
  pure (⟨s.name, outcome, iterations, r.failures.toList, r.completions.toList, r.shadow⟩, r.bench)

end Testbench

end CrossbarBench
