import CrossbarBench.Proofs.Bench.Closure
import CrossbarBench.Proofs.Run.Unroll

/-! Which calls a testbench makes to its device. What a run does depends on the device only
through what its signals show, so a device may be replaced by any other that shows the same. One
such device passes every call on and keeps a recording of it. The recording of a run holds the
calls that are made without it. -/

namespace CrossbarBench

namespace Device

/-- A map of states that commutes with all that a testbench does to a device and hides nothing
that it sees. -/
structure Hom {σ τ : Type} [Device σ] [Device τ] (f : σ → τ) : Prop where
  eval : ∀ d, f (eval d) = eval (f d)
  clock : ∀ d, clock (f d) = clock d
  setClock : ∀ d high, f (setClock d high) = setClock (f d) high
  setReset : ∀ d high, f (setReset d high) = setReset (f d) high
  setDelay : ∀ d peripheral delay, f (setDelay d peripheral delay) = setDelay (f d) peripheral delay
  read : ∀ d port signal, read (f d) port signal = read d port signal
  drive : ∀ d port signal value, f (drive d port signal value) = drive (f d) port signal value
  canWrite : ∀ d port, canWrite (f d) port = canWrite d port
  addressWidth : ∀ d, addressWidth (f d) = addressWidth d
  dump : ∀ d time, f (dump d time) = dump (f d) time

end Device

/-- The bench with the image of its device. -/
def Testbench.map {σ τ : Type} (f : σ → τ) (b : Testbench σ) : Testbench τ :=
  ⟨f b.device, b.time, b.records⟩

/-- The run on the bench with the image of its device. -/
def Run.map {σ τ : Type} (f : σ → τ) (r : Run σ) : Run τ :=
  ⟨r.bench.map f, r.requesters, r.shadow, r.failures, r.completions⟩

namespace Device.Hom

variable {σ τ : Type} [Device σ] [Device τ] {f : σ → τ}

/-! ### Port access -/

theorem sense (h : Hom f) (d : σ) (port : Port) (signal : Signal) :
    Device.sense (f d) port signal = Device.sense d port signal := by
  rw [Device.sense, Device.sense, h.read, h.addressWidth]

theorem put (h : Hom f) (d : σ) (port : Port) (signal : Signal) (value : Word) :
    f (Device.put d port signal value) = Device.put (f d) port signal value := by
  rw [Device.put, Device.put, h.drive, h.addressWidth]

theorem setRequest (h : Hom f) (d : σ) (port : Port) (high : Bool) :
    f (Device.setRequest d port high) = Device.setRequest (f d) port high := h.put d port _ _

theorem setWriteEnable? (h : Hom f) (d : σ) (port : Port) (high : Bool) :
    (Device.setWriteEnable? d port high).map f = Device.setWriteEnable? (f d) port high := by
  unfold Device.setWriteEnable?
  rw [h.canWrite]
  split
  · rw [Option.map_some, h.put]
  · rfl

theorem driveWrite? (h : Hom f) (d : σ) (port : Port) (enables : ByteEnables) (data : Word) :
    (Device.driveWrite? d port enables data).map f =
      Device.driveWrite? (f d) port enables data := by
  rw [Device.driveWrite?, Device.driveWrite?, ← h.setWriteEnable?, Option.map_map, Option.map_map]
  refine congrArg (Option.map · _) (funext fun d => ?_)
  simp only [Function.comp_apply, h.put]

theorem issue (h : Hom f) (d : σ) (port : Port) (q : Request) :
    f (Device.issue d port q) = Device.issue (f d) port q := by
  unfold Device.issue Device.setAddress
  dsimp only
  rw [← h.setRequest, ← h.put]
  split
  · rw [← h.driveWrite?, Option.getD_map]
  · rw [← h.setWriteEnable?, Option.getD_map]

theorem request (h : Hom f) (d : σ) (port : Port) :
    Device.request (f d) port = Device.request d port := by
  rw [Device.request, Device.request, h.sense]

theorem ready (h : Hom f) (d : σ) (port : Port) :
    Device.ready (f d) port = Device.ready d port := by
  rw [Device.ready, Device.ready, h.sense]

theorem handshake? (h : Hom f) (d : σ) (port : Port) :
    Device.handshake? (f d) port = Device.handshake? d port := by
  unfold Device.handshake? Device.writeEnable? Device.byteEnables? Device.writeData?
  rw [h.request, h.ready, h.canWrite]
  simp only [Device.address, Device.readData, h.sense]

theorem readyUnasked (h : Hom f) (d : σ) (port : Port) :
    Device.readyUnasked (f d) port = Device.readyUnasked d port := by
  rw [Device.readyUnasked, Device.readyUnasked, h.request, h.ready]

/-! ### The clock -/

theorem halfCycle (h : Hom f) (b : Testbench σ) (high : Bool) (passing : Nat) :
    (b.map f).halfCycle high passing = (b.halfCycle high passing).map f := by
  simp only [Testbench.halfCycle, Testbench.sample, Testbench.onDevice, Testbench.map, h.eval,
    h.dump, h.setClock]

theorem clock_map (h : Hom f) (b : Testbench σ) :
    Device.clock (b.map f).device = Device.clock b.device := h.clock b.device

theorem toStimulus (h : Hom f) (b : Testbench σ) :
    (b.map f).toStimulus = b.toStimulus.map f := by
  unfold Testbench.toStimulus Testbench.rise Testbench.fall
  rw [h.clock_map]
  split
  · rw [h.halfCycle, h.halfCycle]
  · rw [h.halfCycle]

theorem toResponse (h : Hom f) (b : Testbench σ) :
    (b.map f).toResponse = b.toResponse.map f := by
  unfold Testbench.toResponse Testbench.rise Testbench.fall
  rw [h.clock_map]
  split
  · rw [h.halfCycle]
  · rw [h.halfCycle, h.halfCycle]

theorem cycles (h : Hom f) (n : Nat) (b : Testbench σ) :
    Testbench.cycles n (b.map f) = (Testbench.cycles n b).map f := by
  induction n generalizing b with
  | zero => rfl
  | succ n ih =>
    have hcycle : (b.map f).cycle = b.cycle.map f := by
      unfold Testbench.cycle
      rw [h.clock_map]
      split
      · rw [h.toResponse, h.toStimulus]
      · rw [h.toStimulus, h.toResponse]
    rw [Testbench.cycles, hcycle, ih, Testbench.cycles]

omit [Device σ] [Device τ] in
theorem onDevice {g : σ → σ} {g' : τ → τ} (hg : ∀ d, g' (f d) = f (g d)) (b : Testbench σ) :
    (b.map f).onDevice g' = (b.onDevice g).map f := by
  simp only [Testbench.onDevice, Testbench.map, hg]

theorem reset (h : Hom f) (b : Testbench σ) : (b.map f).reset = b.reset.map f := by
  unfold Testbench.reset
  dsimp only
  rw [h.toStimulus, onDevice fun d => (h.setReset d false).symm, h.cycles,
    onDevice fun d => (h.setReset d true).symm, h.cycles]

theorem prepare (h : Hom f) (b : Testbench σ) (delays : Table 4 Nat) :
    (b.map f).prepare delays = (b.prepare delays).map f := by
  have hset : ∀ d, (List.finRange 4).foldl
      (fun d (p : Peripheral) => Device.setDelay d p.val (delays.get p)) (f d) =
        f ((List.finRange 4).foldl (fun d p => Device.setDelay d p.val (delays.get p)) d) :=
    fun d => List.foldl_hom f fun d p => (h.setDelay d p.val (delays.get p)).symm
  have hwithdraw : ∀ d, Port.all.foldl (fun d port => Device.setRequest d port false) (f d) =
      f (Port.all.foldl (fun d port => Device.setRequest d port false) d) :=
    fun d => List.foldl_hom f fun d port => (h.setRequest d port false).symm
  unfold Testbench.prepare
  dsimp only
  rw [onDevice fun d => by rw [hset, hwithdraw], h.reset]

/-! ### Runs -/

omit [Device σ] [Device τ] in
theorem retire (r : Run σ) (iteration : Nat) (port : Port) (shake : Handshake) :
    (r.map f).retire iteration port shake = (r.retire iteration port shake).map f := by
  unfold Run.retire
  cases shake.isWrite
  · simp only [Bool.false_eq_true, ↓reduceIte]
    by_cases hr : shake.readData = r.shadow.expected shake.address
    · simp only [Run.map, Run.withRequester, Run.complete, hr, ↓reduceIte]
      rfl
    · simp only [Run.map, Run.withRequester, hr, ↓reduceIte]
      rfl
  · rfl

theorem feed (h : Hom f) (r : Run σ) (port : Port) :
    (r.map f).feed port = (r.feed port).map f := by
  have hrequest : ∀ (r : Run σ) (g : Requester → Requester),
      ((r.map f).withRequester port g).withBench (·.onDevice (Device.setRequest · port false)) =
        ((r.withRequester port g).withBench
          (·.onDevice (Device.setRequest · port false))).map f := by
    intro r g
    simp only [Run.map, Run.withRequester, Run.withBench]
    rw [onDevice fun d => (h.setRequest d port false).symm]
  have hq : (r.map f).requesters = r.requesters := rfl
  unfold Run.feed
  dsimp only
  rw [hq]
  split
  · rfl
  · split
    · exact hrequest r _
    · exact hrequest r _
    · simp only [Run.map, Run.withRequester, Run.withBench]
      rw [onDevice fun d => (h.issue d port _).symm]
      rfl

theorem checkIdle (h : Hom f) (iteration : Nat) (r : Run σ) (port : Port) :
    Run.checkIdle iteration (r.map f) port = (Run.checkIdle iteration r port).map f := by
  have hd : Device.readyUnasked (r.map f).bench.device port =
      Device.readyUnasked r.bench.device port := h.readyUnasked _ _
  unfold Run.checkIdle
  rw [hd]
  split <;> rfl

theorem collect (h : Hom f) (iteration : Nat) (r : Run σ) (port : Port) :
    Run.collect iteration (r.map f) port = (Run.collect iteration r port).map f := by
  have hd : Device.handshake? (r.map f).bench.device port =
      Device.handshake? r.bench.device port := h.handshake? _ _
  unfold Run.collect
  rw [hd]
  split
  · rfl
  · exact retire r iteration port _

theorem stimulate (h : Hom f) (r : Run σ) : (r.map f).stimulate = r.stimulate.map f := by
  have hb : (r.map f).withBench Testbench.toStimulus =
      (r.withBench Testbench.toStimulus).map f := by
    simp only [Run.withBench, Run.map, h.toStimulus]
  rw [Run.stimulate, hb]
  exact List.foldl_hom (Run.map f) h.feed

theorem respond (h : Hom f) (iteration : Nat) (r : Run σ) :
    (r.map f).respond iteration = (r.respond iteration).map f := by
  have hb : (r.map f).withBench Testbench.toResponse =
      (r.withBench Testbench.toResponse).map f := by
    simp only [Run.withBench, Run.map, h.toResponse]
  rw [Run.respond, hb, List.foldl_hom (Run.map f) (h.checkIdle iteration),
    List.foldl_hom (Run.map f) (h.collect iteration), Run.respond]

theorem iterate (h : Hom f) (iteration : Nat) (r : Run σ) :
    (r.map f).iterate iteration = (r.iterate iteration).map f := by
  rw [Run.iterate, h.stimulate, h.respond, Run.iterate]

theorem launch (h : Hom f) (b : Testbench σ) (map : AddressMap) (s : Scenario) :
    (b.map f).launch map s = (b.launch map s).map f := by
  simp only [Testbench.launch, Run.start, Run.map, h.prepare]

theorem unroll (h : Hom f) (b : Testbench σ) (map : AddressMap) (s : Scenario) (n : Nat) :
    (b.map f).unroll map s n = (b.unroll map s n).map f := by
  induction n with
  | zero => exact h.launch b map s
  | succ n ih => rw [Testbench.unroll, ih, h.iterate, Testbench.unroll]

theorem loop (h : Hom f) (limit left iteration : Nat) (r : Run σ) :
    Run.loop limit left iteration (r.map f) =
      let l := Run.loop limit left iteration r
      (l.1, l.2.1, l.2.2.map f) := by
  induction left generalizing iteration r with
  | zero => rfl
  | succ left ih =>
    have hd : ((r.iterate iteration).map f).allDrained = (r.iterate iteration).allDrained := rfl
    unfold Run.loop
    dsimp only
    rw [h.iterate, hd]
    split
    · rfl
    · exact ih _ _

/-- A run goes the same way on the image, which it leaves at the image of what it leaves. -/
theorem perform (h : Hom f) (b : Testbench σ) (s : Scenario) :
    (b.map f).perform s = (b.perform s).map fun e => (e.1, e.2.map f) := by
  have hw : Device.addressWidth (b.map f).device = Device.addressWidth b.device :=
    h.addressWidth b.device
  rw [Testbench.perform_eq, Testbench.perform_eq, hw]
  cases AddressMap.ofWidth (Device.addressWidth b.device) with
  | error => rfl
  | ok map =>
    simp only [Except.map, h.launch, h.loop]
    rfl

end Device.Hom

/-! ### Recordings -/

/-- A call that changes a device. -/
inductive Device.Call where
  | eval
  | setClock (high : Bool)
  | setReset (high : Bool)
  | setDelay (peripheral delay : Nat)
  | drive (port : Port) (signal : Signal) (value : Word)
  | dump (time : Nat)
  deriving DecidableEq

namespace Device.Call

def apply {σ : Type} [Device σ] (d : σ) : Call → σ
  | eval => Device.eval d
  | setClock high => Device.setClock d high
  | setReset high => Device.setReset d high
  | setDelay peripheral delay => Device.setDelay d peripheral delay
  | drive port signal value => Device.drive d port signal value
  | dump time => Device.dump d time

/-- The call drives a signal of a port. -/
def drives (port : Port) : Call → Bool
  | drive p _ _ => p = port
  | eval | setClock _ | setReset _ | setDelay _ _ | dump _ => false

end Device.Call

/-- A device with the calls that were made to it, the last one at the end. -/
structure Recorder (σ : Type) where
  device : σ
  calls : List Device.Call

namespace Recorder

variable {σ : Type} [Device σ]

/-- Passes a call on and records it. -/
def call (r : Recorder σ) (c : Device.Call) : Recorder σ := ⟨c.apply r.device, r.calls ++ [c]⟩

instance : Device (Recorder σ) where
  eval r := r.call .eval
  clock r := Device.clock r.device
  setClock r high := r.call (.setClock high)
  setReset r high := r.call (.setReset high)
  setDelay r peripheral delay := r.call (.setDelay peripheral delay)
  read r := Device.read r.device
  drive r port signal value := r.call (.drive port signal value)
  canWrite r := Device.canWrite r.device
  addressWidth r := Device.addressWidth r.device
  dump r time := r.call (.dump time)

/-- The calls on record that drive a port. -/
def drivesOn (r : Recorder σ) (port : Port) : List Device.Call :=
  r.calls.filter (Device.Call.drives port)

/-- A device cannot tell that it is recorded. -/
theorem hom_device : Device.Hom (Recorder.device : Recorder σ → σ) where
  eval _ := rfl
  clock _ := rfl
  setClock _ _ := rfl
  setReset _ _ := rfl
  setDelay _ _ _ := rfl
  read _ _ _ := rfl
  drive _ _ _ _ := rfl
  canWrite _ _ := rfl
  addressWidth _ := rfl
  dump _ _ := rfl

/-! ### What drives a port -/

variable {port : Port}

theorem drivesOn_call (r : Recorder σ) (c : Device.Call) (h : c.drives port = false) :
    (r.call c).drivesOn port = r.drivesOn port := by
  simp [drivesOn, call, h]

/-- Only its own requester drives a port, and not while that awaits an answer. -/
theorem drivesOn_actOn {other : Port} {q : Requester} (h : other = port → q.awaiting = true)
    (r : Recorder σ) : (q.actOn other r).drivesOn port = r.drivesOn port := by
  by_cases ho : other = port
  · rw [Requester.actOn, if_pos (h ho)]
  · have hkept : Device.ClosedOn other fun d : Recorder σ => d.drivesOn port = r.drivesOn port :=
      fun d signal value hd =>
        (drivesOn_call d (.drive other signal value) (decide_eq_false ho)).trans hd
    exact hkept.actOn rfl q

theorem drivesOn_halfCycle (b : Testbench (Recorder σ)) (high : Bool) (passing : Nat) :
    (b.halfCycle high passing).device.drivesOn port = b.device.drivesOn port := by
  change (((((b.device.call .eval).call (.dump _)).call (.setClock high)).call .eval).call
    (.dump _)).drivesOn port = _
  rw [drivesOn_call _ _ rfl, drivesOn_call _ _ rfl, drivesOn_call _ _ rfl, drivesOn_call _ _ rfl,
    drivesOn_call _ _ rfl]

theorem drivesOn_toStimulus (b : Testbench (Recorder σ)) :
    b.toStimulus.device.drivesOn port = b.device.drivesOn port := by
  unfold Testbench.toStimulus Testbench.rise Testbench.fall
  split
  · rw [drivesOn_halfCycle, drivesOn_halfCycle]
  · rw [drivesOn_halfCycle]

theorem drivesOn_toResponse (b : Testbench (Recorder σ)) :
    b.toResponse.device.drivesOn port = b.device.drivesOn port := by
  unfold Testbench.toResponse Testbench.rise Testbench.fall
  split
  · rw [drivesOn_halfCycle]
  · rw [drivesOn_halfCycle, drivesOn_halfCycle]

end Recorder

/-- The bench with its device on record from now on. -/
def Testbench.recording {σ : Type} (b : Testbench σ) : Testbench (Recorder σ) :=
  ⟨⟨b.device, []⟩, b.time, b.records⟩

namespace Testbench

variable {σ : Type} [Device σ]

theorem unroll_recording (b : Testbench σ) (map : AddressMap) (s : Scenario) (n : Nat) :
    (b.recording.unroll map s n).map Recorder.device = b.unroll map s n :=
  (Recorder.hom_device.unroll b.recording map s n).symm

/-- A run on record is the run of the bench itself. -/
theorem perform_recording (b : Testbench σ) (s : Scenario) :
    (b.recording.perform s).map (fun e => (e.1, e.2.map Recorder.device)) = b.perform s :=
  (Recorder.hom_device.perform b.recording s).symm

variable {b : Testbench σ} {map : AddressMap} {s : Scenario} {report : Report}
  {recorded : Testbench (Recorder σ)} {n : Nat}

theorem requesters_recording (b : Testbench σ) (map : AddressMap) (s : Scenario) (n : Nat) :
    (b.recording.unroll map s n).requesters = (b.unroll map s n).requesters :=
  congrArg Run.requesters (b.unroll_recording map s n)

theorem completions_recording (b : Testbench σ) (map : AddressMap) (s : Scenario) (n : Nat) :
    (b.recording.unroll map s n).completions = (b.unroll map s n).completions :=
  congrArg Run.completions (b.unroll_recording map s n)

theorem drainsAt_recording : b.recording.DrainsAt map s n ↔ b.DrainsAt map s n := by
  have hd : ∀ m, (b.recording.unroll map s m).allDrained = (b.unroll map s m).allDrained := by
    intro m
    rw [Run.allDrained, Run.allDrained, requesters_recording]
  constructor
  · exact fun h => ⟨(hd n).symm.trans h.drained, fun m hm => (hd m).symm.trans (h.first m hm)⟩
  · exact fun h => ⟨(hd n).trans h.drained, fun m hm => (hd m).trans (h.first m hm)⟩

/-- A run with its report and its bench, whose device has been on record throughout. -/
structure OnRecord (b : Testbench σ) (map : AddressMap) (s : Scenario) (report : Report)
    (recorded : Testbench (Recorder σ)) : Prop where
  records : b.recording.perform s = .ok (report, recorded)
  performs : b.perform s = .ok (report, recorded.map Recorder.device)
  device : recorded.device = (b.recording.unroll map s report.executed).bench.device

theorem OnRecord.of_records (records : b.recording.perform s = .ok (report, recorded))
    (device : recorded.device = (b.recording.unroll map s report.executed).bench.device) :
    b.OnRecord map s report recorded where
  records := records
  performs := by
    rw [← perform_recording, records]
    rfl
  device := device

/-- A run on record ends where the run itself drains below its limit, or is cut off with it. -/
theorem onRecord_unroll (width : Device.addressWidth b.device = map.width) (s : Scenario) :
    (∃ n, n < s.limit ∧ b.DrainsAt map s n ∧
      b.OnRecord map s (b.recording.finished map s n).1 (b.recording.finished map s n).2) ∨
    ((∀ n, n < s.limit → ¬ b.DrainsAt map s n) ∧
      b.OnRecord map s (b.recording.cutOff map s).1 (b.recording.cutOff map s).2) := by
  rcases perform_unroll (b := b.recording) width s with ⟨n, hl, hd, hp⟩ | ⟨hf, hp⟩
  · exact .inl ⟨n, hl, drainsAt_recording.mp hd, .of_records hp rfl⟩
  · refine .inr ⟨fun n hl hd => ?_, .of_records hp ?_⟩
    · have hdrained := (drainsAt_recording.mpr hd).drained
      rw [hf n hl] at hdrained
      cases hdrained
    · rw [executed_cutOff]
      rfl

theorem exists_onRecord (width : Device.addressWidth b.device = map.width) (s : Scenario) :
    ∃ report recorded, b.OnRecord map s report recorded := by
  rcases onRecord_unroll width s with ⟨n, -, -, h⟩ | ⟨-, h⟩
  · exact ⟨_, _, h⟩
  · exact ⟨_, _, h⟩

end Testbench

end CrossbarBench
