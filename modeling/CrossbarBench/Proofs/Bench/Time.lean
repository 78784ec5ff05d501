import CrossbarBench.Crossbar.Basic
import CrossbarBench.Proofs.Bench.Closure

/-! Where a testbench is in time, for any device whose clock reads as it was last set. A cycle
takes ten units of time from either phase. So what a run has been preceded by shows in its
times only through the moment of the first rising edge, its origin. -/

namespace CrossbarBench

namespace Device

/-- The clock reads as it was last set. -/
structure ClockKept (σ : Type) [Device σ] : Prop where
  setClock : ∀ (d : σ) high, clock (setClock d high) = high
  eval : ∀ d : σ, clock (eval d) = clock d
  setReset : ∀ (d : σ) high, clock (setReset d high) = clock d
  setDelay : ∀ (d : σ) peripheral delay, clock (setDelay d peripheral delay) = clock d
  drive : ∀ (d : σ) port signal value, clock (drive d port signal value) = clock d
  dump : ∀ (d : σ) time, clock (dump d time) = clock d

end Device

theorem Crossbar.clockKept : Device.ClockKept Crossbar where
  setClock _ _ := rfl
  eval x := by
    rw [device_eval, Crossbar.eval]
    split <;> rfl
  setReset _ _ := rfl
  setDelay x peripheral delay := by
    rw [device_setDelay, Crossbar.setDelay]
    split <;> rfl
  drive x port signal value := by
    rw [device_drive, Crossbar.drive]
    split <;> rfl
  dump _ _ := rfl

namespace Testbench

variable {σ : Type} [Device σ]

/-- The time right after the next rising edge. -/
def origin (b : Testbench σ) : Nat := b.time + if Device.clock b.device then 10 else 2

theorem time_toStimulus (b : Testbench σ) : b.toStimulus.time = b.origin := by
  unfold toStimulus origin rise fall
  split <;> simp only [time_halfCycle, Nat.add_assoc]

theorem time_toResponse {b : Testbench σ} (h : Device.clock b.device = true) :
    b.toResponse.time = b.time + 8 := by
  rw [toResponse, if_pos h, fall, time_halfCycle]

end Testbench

namespace Device.ClockKept

variable {σ : Type} [Device σ]

theorem clock_halfCycle (h : ClockKept σ) (b : Testbench σ) (high : Bool) (passing : Nat) :
    clock (b.halfCycle high passing).device = high :=
  (h.dump _ _).trans ((h.eval _).trans (h.setClock _ _))

theorem clock_toStimulus (h : ClockKept σ) (b : Testbench σ) :
    clock b.toStimulus.device = true := h.clock_halfCycle _ _ _

theorem clock_toResponse (h : ClockKept σ) (b : Testbench σ) :
    clock b.toResponse.device = false := h.clock_halfCycle _ _ _

/-- A low clock rises two units later. -/
theorem origin_toResponse (h : ClockKept σ) (b : Testbench σ) :
    b.toResponse.origin = b.toResponse.time + 2 := by
  rw [Testbench.origin, h.clock_toResponse, if_neg Bool.false_ne_true]

theorem time_cycles (h : ClockKept σ) (n : Nat) {b : Testbench σ} (hc : clock b.device = true) :
    clock (Testbench.cycles n b).device = true ∧
      (Testbench.cycles n b).time = b.time + 10 * n := by
  induction n generalizing b with
  | zero => exact ⟨hc, rfl⟩
  | succ n ih =>
    have hcycle : b.cycle = b.toResponse.toStimulus := by rw [Testbench.cycle, if_pos hc]
    have htime : b.cycle.time = b.time + 10 := by
      rw [hcycle, Testbench.time_toStimulus, h.origin_toResponse, Testbench.time_toResponse hc]
    obtain ⟨hn, ht⟩ := ih (b := b.cycle) (by rw [hcycle]; exact h.clock_toStimulus _)
    refine ⟨hn, ?_⟩
    rw [Testbench.cycles, ht, htime]
    omega

/-- A reset ends high, twenty cycles after the origin. -/
theorem lands_reset (h : ClockKept σ) (b : Testbench σ) :
    clock b.reset.device = true ∧ b.reset.time = b.origin + 200 := by
  let held := b.toStimulus.onDevice (Device.setReset · false)
  have hheld : clock held.device = true := (h.setReset _ _).trans (h.clock_toStimulus b)
  obtain ⟨hc, ht⟩ := h.time_cycles 10 hheld
  let freed := (Testbench.cycles 10 held).onDevice (Device.setReset · true)
  have hfreed : clock freed.device = true := (h.setReset _ _).trans hc
  obtain ⟨hc', ht'⟩ := h.time_cycles 10 hfreed
  refine ⟨hc', ?_⟩
  calc b.reset.time = (Testbench.cycles 10 freed).time := rfl
    _ = held.time + 10 * 10 + 10 * 10 := by rw [ht', ← ht]; rfl
    _ = b.origin + 200 := by rw [← Testbench.time_toStimulus]; rfl

/-- So does preparation. -/
theorem lands_prepare (h : ClockKept σ) (b : Testbench σ) (delays : Table 4 Nat) :
    clock (b.prepare delays).device = true ∧ (b.prepare delays).time = b.origin + 200 := by
  obtain ⟨d, hd, he⟩ := Testbench.prepare_eq_reset (Q := fun d => clock d = clock b.device)
    (fun d _ _ hd => (h.setDelay d _ _).trans hd) (fun d _ hd => (h.drive d _ _ _).trans hd) rfl
    delays
  have ho : ({ b with device := d } : Testbench σ).origin = b.origin := by
    simp only [Testbench.origin, hd]
  rw [he, ← ho]
  exact h.lands_reset _

/-! ### Iterations -/

/-- Feeding leaves the clock alone. -/
theorem clock_stimulate (h : ClockKept σ) (r : Run σ) : clock r.stimulate.bench.device = true := by
  have hfeed : ∀ port, ClosedOn port fun d : σ => clock d = true :=
    fun port d signal value hd => (h.drive d port signal value).trans hd
  rw [Run.device_stimulate]
  exact (hfeed .three).actOn ((hfeed .two).actOn ((hfeed .one).actOn
    (h.clock_toStimulus r.bench) _) _) _

/-- The response phase lands eight units after the origin. -/
theorem time_toResponse_stimulate (h : ClockKept σ) (r : Run σ) :
    r.stimulate.bench.toResponse.time = r.bench.origin + 8 := by
  rw [Testbench.time_toResponse (h.clock_stimulate r), Run.time_stimulate,
    Testbench.time_toStimulus]

theorem time_iterate (h : ClockKept σ) (r : Run σ) (k : Nat) :
    (r.iterate k).bench.time = r.bench.origin + 8 := by
  rw [Run.bench_iterate, ← h.time_toResponse_stimulate]

end Device.ClockKept

end CrossbarBench
