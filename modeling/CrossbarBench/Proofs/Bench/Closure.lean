import CrossbarBench.Proofs.Run.Loop
import CrossbarBench.Proofs.Run.Response
import CrossbarBench.Proofs.Run.Stimulus

/-! Whatever a testbench does to its device it does through the operations of a device. So
a property that each of these operations keeps is kept by the clock, by port access and by
whole runs. -/

namespace CrossbarBench

namespace Device

/-- All that a testbench does to its device keeps the property. What it dumps it has just
evaluated. -/
structure Closed {σ : Type} [Device σ] (Q : σ → Prop) : Prop where
  sample : ∀ d time, Q d → Q (dump (eval d) time)
  setClock : ∀ d high, Q d → Q (setClock d high)
  setReset : ∀ d high, Q d → Q (setReset d high)
  setDelay : ∀ d peripheral delay, Q d → Q (setDelay d peripheral delay)
  drive : ∀ d port signal value, Q d → Q (drive d port signal value)

/-- All that is driven onto a port keeps the property. -/
def ClosedOn {σ : Type} [Device σ] (port : Port) (Q : σ → Prop) : Prop :=
  ∀ d signal value, Q d → Q (drive d port signal value)

/-! ### Port access -/

namespace ClosedOn

variable {σ : Type} [Device σ] {Q : σ → Prop} {port : Port} {d : σ}

theorem setRequest (h : ClosedOn port Q) (hd : Q d) (high : Bool) :
    Q (Device.setRequest d port high) := h _ _ _ hd

theorem setAddress (h : ClosedOn port Q) (hd : Q d) (address : Word) :
    Q (Device.setAddress d port address) := h _ _ _ hd

theorem setWriteEnable? (h : ClosedOn port Q) (hd : Q d) (high : Bool) :
    Q ((Device.setWriteEnable? d port high).getD d) := by
  unfold Device.setWriteEnable?
  split
  · exact h _ _ _ hd
  · exact hd

theorem driveWrite? (h : ClosedOn port Q) (hd : Q d) (enables : ByteEnables) (data : Word) :
    Q ((Device.driveWrite? d port enables data).getD d) := by
  unfold Device.driveWrite? Device.setWriteEnable?
  split
  · exact h _ _ _ (h _ _ _ (h _ _ _ hd))
  · exact hd

theorem issue (h : ClosedOn port Q) (hd : Q d) (q : Request) : Q (Device.issue d port q) := by
  have ha := h.setAddress (h.setRequest hd true) q.address
  unfold Device.issue
  dsimp only
  split
  · exact h.driveWrite? ha q.enables q.data
  · exact h.setWriteEnable? ha false

theorem actOn (h : ClosedOn port Q) (hd : Q d) (q : Requester) : Q (q.actOn port d) := by
  unfold Requester.actOn
  split
  · exact hd
  · split
    · exact h.issue hd _
    · exact h.setRequest hd false

end ClosedOn

namespace Closed

variable {σ : Type} [Device σ] {Q : σ → Prop}

theorem on (h : Closed Q) (port : Port) : ClosedOn port Q :=
  fun d signal value => h.drive d port signal value

/-! ### The clock -/

theorem halfCycle (h : Closed Q) {b : Testbench σ} (hb : Q b.device) (high : Bool)
    (passing : Nat) : Q (b.halfCycle high passing).device :=
  h.sample _ _ (h.setClock _ high (h.sample _ _ hb))

theorem toStimulus (h : Closed Q) {b : Testbench σ} (hb : Q b.device) :
    Q b.toStimulus.device := by
  unfold Testbench.toStimulus
  split
  · exact h.halfCycle (h.halfCycle hb _ _) _ _
  · exact h.halfCycle hb _ _

theorem toResponse (h : Closed Q) {b : Testbench σ} (hb : Q b.device) :
    Q b.toResponse.device := by
  unfold Testbench.toResponse
  split
  · exact h.halfCycle hb _ _
  · exact h.halfCycle (h.halfCycle hb _ _) _ _

theorem cycles (h : Closed Q) (n : Nat) {b : Testbench σ} (hb : Q b.device) :
    Q (Testbench.cycles n b).device := by
  induction n generalizing b with
  | zero => exact hb
  | succ n ih =>
    apply ih
    unfold Testbench.cycle
    split
    · exact h.toStimulus (h.toResponse hb)
    · exact h.toResponse (h.toStimulus hb)

theorem reset (h : Closed Q) {b : Testbench σ} (hb : Q b.device) : Q b.reset.device := by
  have hheld := h.setReset _ false (h.toStimulus hb)
  have hlow := h.cycles 10 (b := b.toStimulus.onDevice (Device.setReset · false)) hheld
  exact h.cycles 10 (b := Testbench.onDevice _ (Device.setReset · true)) (h.setReset _ true hlow)

/-! ### Runs -/

theorem prepare (h : Closed Q) {b : Testbench σ} (hb : Q b.device) (delays : Table 4 Nat) :
    Q (b.prepare delays).device := by
  obtain ⟨d, hd, he⟩ := Testbench.prepare_eq_reset h.setDelay
    (fun d port hd => (h.on port).setRequest hd false) hb delays
  rw [he]
  exact h.reset (b := { b with device := d }) hd

theorem iterate (h : Closed Q) {r : Run σ} (hr : Q r.bench.device) (k : Nat) :
    Q (r.iterate k).bench.device := by
  rw [Run.device_iterate]
  apply h.toResponse
  rw [Run.device_stimulate]
  exact (h.on .three).actOn ((h.on .two).actOn ((h.on .one).actOn (h.toStimulus hr) _) _) _

theorem perform (h : Closed Q) {b : Testbench σ} (hb : Q b.device) {s : Scenario}
    {map : AddressMap} (width : Device.addressWidth b.device = map.width) {report : Report}
    {bench : Testbench σ} (hp : b.perform s = .ok (report, bench)) : Q bench.device := by
  rcases Testbench.perform_ends (P := fun _ r => Q r.bench.device) (s := s) width
    (h.prepare hb s.delays) (fun k _ hr _ => h.iterate hr k) with
      ⟨n, r, -, -, hr, -, he⟩ | ⟨n, r, -, hr, he⟩
  · rw [hp] at he
    cases he
    exact h.iterate hr n
  · rw [hp] at he
    cases he
    exact hr

end Closed

end Device

end CrossbarBench
