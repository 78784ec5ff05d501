import CrossbarBench.Proofs.Bench.Closure
import CrossbarBench.Proofs.Crossbar.Clocking
import CrossbarBench.Proofs.Crossbar.Grants
import CrossbarBench.Proofs.Crossbar.Registers

/-! The states that a crossbar and a testbench around it can be in: those that calls lead to
from a new one. Few calls change a memory, and each in one way. The registers of a crossbar hold
only what its signals can carry, whatever calls are made. -/

namespace CrossbarBench

namespace Crossbar

/-- A call that changes a crossbar: an operation of a device, or the injection of a fault. -/
inductive Call where
  | eval
  | setClock (high : Bool)
  | setReset (high : Bool)
  | setDelay (peripheral delay : Nat)
  | drive (port : Port) (signal : Signal) (value : Word)
  | dump (time : Nat)
  | withTrace
  | withCorruption (mask : Word)
  | withSpuriousReady (port : Port)

def Call.apply (x : Crossbar) : Call → Crossbar
  | .eval => x.eval
  | .setClock high => { x with clock := high }
  | .setReset high => { x with resetLevel := high }
  | .setDelay peripheral delay => x.setDelay peripheral delay
  | .drive port signal value => x.drive port signal value
  | .dump time => x.dump time
  | .withTrace => x.withTrace
  | .withCorruption mask => x.withCorruption mask
  | .withSpuriousReady port => x.withSpuriousReady port

/-- The call drives a signal. -/
def Call.isDrive : Call → Bool
  | .drive .. => true
  | .eval | .setClock _ | .setReset _ | .setDelay .. | .dump _ | .withTrace | .withCorruption _
  | .withSpuriousReady _ => false

/-- Only what is driven changes the input registers. -/
theorem controllers_apply (x : Crossbar) {call : Call} (h : call.isDrive = false) :
    (call.apply x).controllers = x.controllers := by
  cases call with
  | drive => cases h
  | eval =>
    rw [Call.apply, eval]
    split <;> rfl
  | setDelay peripheral delay =>
    rw [Call.apply, setDelay]
    split <;> rfl
  | setClock | setReset | dump | withTrace | withCorruption | withSpuriousReady => rfl

/-- What a call does to a memory: an evaluation makes its edge or resets it, a delay is set, or it
stays as it is. -/
theorem memory_cases (x : Crossbar) (call : Call) (p : Peripheral) :
    (call.apply x).memories.get p = x.memories.get p ∨
    (call = .eval ∧
      ((call.apply x).memories.get p = (x.memories.get p).edge p x.controllers ∨
        (call.apply x).memories.get p = (x.memories.get p).reset)) ∨
    ∃ delay, call = .setDelay p.val delay ∧
      (call.apply x).memories.get p = { x.memories.get p with delay := delay } := by
  cases call with
  | eval =>
    rw [Call.apply, memories_eval]
    split
    · rw [memories_edge]
      split
      · exact .inr (.inl ⟨rfl, .inl rfl⟩)
      · exact .inr (.inl ⟨rfl, .inr rfl⟩)
    · exact .inl rfl
  | setDelay peripheral delay =>
    rw [Call.apply, setDelay]
    split
    · dsimp only
      rw [Table.get_modify]
      split
      · rename_i hp
        subst hp
        exact .inr (.inr ⟨delay, rfl, rfl⟩)
      · exact .inl rfl
    · exact .inl rfl
  | drive port signal value =>
    rw [Call.apply, drive]
    split <;> exact .inl rfl
  | setClock | setReset | dump | withTrace | withCorruption | withSpuriousReady => exact .inl rfl

/-- The crossbar after calls in order. -/
def after (x : Crossbar) (calls : List Call) : Crossbar := calls.foldl Call.apply x

theorem after_append (x : Crossbar) (calls more : List Call) :
    x.after (calls ++ more) = (x.after calls).after more :=
  List.foldl_append

/-- What every call keeps between two crossbars, calls in order keep. -/
theorem after_rel {R : Crossbar → Crossbar → Prop}
    (step : ∀ {x y}, R x y → ∀ call, R (Call.apply x call) (Call.apply y call)) {x y : Crossbar}
    (h : R x y) (calls : List Call) : R (x.after calls) (y.after calls) := by
  induction calls generalizing x y with
  | nil => exact h
  | cons call calls ih => exact ih (step h call)

/-- The crossbar is a new one after some calls. -/
def Reached (x : Crossbar) : Prop := ∃ calls, x = initial.after calls

theorem Reached.call {x : Crossbar} (h : x.Reached) (call : Call) : (call.apply x).Reached := by
  obtain ⟨calls, rfl⟩ := h
  exact ⟨calls ++ [call], (after_append initial calls [call]).symm⟩

/-- What holds of a new crossbar and is kept by every call holds of every crossbar. -/
theorem Reached.induction {x : Crossbar} (h : x.Reached) {Q : Crossbar → Prop}
    (new : Q initial) (step : ∀ x call, Q x → Q (Call.apply x call)) : Q x := by
  obtain ⟨calls, rfl⟩ := h
  have hall : ∀ (calls : List Call) (x : Crossbar), Q x → Q (x.after calls) := by
    intro calls
    induction calls with
    | nil => exact fun _ hx => hx
    | cons call calls ih => exact fun x hx => ih _ (step x call hx)
  exact hall calls initial new

theorem closed_reached : Device.Closed Reached where
  sample _ time h := (h.call .eval).call (.dump time)
  setClock _ high h := h.call (.setClock high)
  setReset _ high h := h.call (.setReset high)
  setDelay _ peripheral delay h := h.call (.setDelay peripheral delay)
  drive _ port signal value h := h.call (.drive port signal value)

theorem fits_latch {port : Port} {inputs : Inputs} (h : inputs.Fits port) {signal : Signal}
    (value : Word) (hw : (signal.writeOnly && !canWrite port) = false) :
    (inputs.latch value signal).Fits port := by
  have hro : signal.writeOnly = true → canWrite port = false → False :=
    fun hs hc => by simp [hs, hc] at hw
  cases signal with
  | request => exact ⟨h.address, h.enables, h.readOnly⟩
  | address => exact ⟨AddressMap.mask_mask .standard value, h.enables, h.readOnly⟩
  | writeEnable => exact ⟨h.address, h.enables, fun hc => (hro rfl hc).elim⟩
  | byteEnables =>
    refine ⟨h.address, ?_, fun hc => (hro rfl hc).elim⟩
    rw [Inputs.latch]
    ext i hi
    simp
  | writeData => exact ⟨h.address, h.enables, fun hc => (hro rfl hc).elim⟩
  | ready => exact h
  | readData => exact h

theorem fits_drive {x : Crossbar} (h : ∀ c, (x.controllers.get c).Fits c) (port : Port)
    (signal : Signal) (value : Word) (c : Port) :
    ((x.drive port signal value).controllers.get c).Fits c := by
  unfold drive
  split
  · exact h c
  · rename_i hw
    dsimp only
    rw [Table.get_modify]
    split
    · rename_i hc
      subst hc
      exact fits_latch (h port) value (by simpa using hw)
    · exact h c

theorem Reached.fits {x : Crossbar} (h : x.Reached) : ∀ c, (x.controllers.get c).Fits c := by
  refine h.induction (Q := fun x => ∀ c, (x.controllers.get c).Fits c) ?_ ?_
  · intro c
    rw [initial, Table.get_replicate]
    exact ⟨rfl, rfl, fun _ => ⟨rfl, rfl, rfl⟩⟩
  · intro x call hx
    by_cases hdrive : call.isDrive = true
    · cases call with
      | drive port signal value => exact fits_drive hx port signal value
      | _ => cases hdrive
    · rw [controllers_apply x (Bool.eq_false_iff.mpr hdrive)]
      exact hx

end Crossbar

namespace Testbench

/-- A call to a testbench around a crossbar, to one of its ports, or past it to the crossbar
itself. -/
inductive Call where
  | device (call : Crossbar.Call)
  | setRequest (port : Port) (high : Bool)
  | setAddress (port : Port) (address : Word)
  | setWriteEnable (port : Port) (high : Bool)
  | driveWrite (port : Port) (enables : ByteEnables) (data : Word)
  | emit (record : LogRecord)
  | toStimulus
  | toResponse
  | cycles (n : Nat)
  | reset
  | perform (s : Scenario)

def Call.apply (b : Testbench Crossbar) : Call → Testbench Crossbar
  | .device call => b.onDevice fun x => call.apply x
  | .setRequest port high => b.onDevice (Device.setRequest · port high)
  | .setAddress port address => b.onDevice (Device.setAddress · port address)
  | .setWriteEnable port high => b.onDevice fun x => (Device.setWriteEnable? x port high).getD x
  | .driveWrite port enables data =>
    b.onDevice fun x => (Device.driveWrite? x port enables data).getD x
  | .emit record => b.emit record
  | .toStimulus => b.toStimulus
  | .toResponse => b.toResponse
  | .cycles n => Testbench.cycles n b
  | .reset => b.reset
  | .perform s =>
    match b.perform s with
    | .ok (_, bench) => bench
    | .error _ => b

/-- The testbench after calls in order. -/
def after (b : Testbench Crossbar) (calls : List Call) : Testbench Crossbar :=
  calls.foldl Call.apply b

/-- The testbench was built around some crossbar and then called. -/
def Reached (b : Testbench Crossbar) : Prop :=
  ∃ x calls, Crossbar.Reached x ∧ b = (new x).after calls

theorem Reached.call {b : Testbench Crossbar} (h : b.Reached) (call : Call) :
    (call.apply b).Reached := by
  obtain ⟨x, calls, hx, rfl⟩ := h
  exact ⟨x, calls ++ [call], hx, by rw [after, after, List.foldl_append]; rfl⟩

theorem Reached.perform {b bench : Testbench Crossbar} {s : Scenario} {report : Report}
    (h : b.Reached) (hp : b.perform s = .ok (report, bench)) : bench.Reached := by
  have hcall := h.call (.perform s)
  rwa [Call.apply, hp] at hcall

/-- What all that a testbench does to its crossbar keeps is kept by a call, if a call past the
testbench keeps it as well. -/
theorem device_apply {Q : Crossbar → Prop} (hc : Device.Closed Q) {b : Testbench Crossbar}
    (h : Q b.device) (call : Call) (hcall : ∀ c, call = .device c → Q (c.apply b.device)) :
    Q (call.apply b).device := by
  cases call with
  | device c => exact hcall c rfl
  | setRequest port high => exact (hc.on port).setRequest h high
  | setAddress port address => exact (hc.on port).setAddress h address
  | setWriteEnable port high => exact (hc.on port).setWriteEnable? h high
  | driveWrite port enables data => exact (hc.on port).driveWrite? h enables data
  | emit => exact h
  | toStimulus => exact hc.toStimulus h
  | toResponse => exact hc.toResponse h
  | cycles n => exact hc.cycles n h
  | reset => exact hc.reset h
  | perform s =>
    simp only [Call.apply]
    split
    · rename_i hp
      have width : Device.addressWidth b.device = AddressMap.standard.width := rfl
      exact hc.perform h width hp
    · exact h

/-- So it holds of the crossbar after calls each of which keeps it. -/
theorem device_after {Q : Crossbar → Prop} (hc : Device.Closed Q) (calls : List Call)
    (hcalls : ∀ c, .device c ∈ calls → ∀ x, Q x → Q (c.apply x)) :
    ∀ {b : Testbench Crossbar}, Q b.device → Q (b.after calls).device := by
  induction calls with
  | nil => exact id
  | cons call calls ih =>
    intro b h
    refine ih (fun c hm => hcalls c (List.mem_cons_of_mem call hm)) (device_apply hc h call ?_)
    rintro c rfl
    exact hcalls c List.mem_cons_self b.device h

/-- A testbench changes its crossbar only by calls to it. -/
theorem Reached.device {b : Testbench Crossbar} (h : b.Reached) : b.device.Reached := by
  obtain ⟨x, calls, hx, rfl⟩ := h
  exact device_after Crossbar.closed_reached calls (fun c _ _ hx => hx.call c)
    (b := new x) ((hx.call .eval).call (.dump 0))

end Testbench

end CrossbarBench
