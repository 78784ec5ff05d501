import CrossbarBench.Bench.Testbench
import CrossbarBench.Crossbar.Basic

/-! The crossbar under the clock of a testbench. Clocking never touches what has been set
up: registers, reset level, delays and injected faults. Once the last clock level has been
evaluated, landing in the stimulus phase makes exactly one registered update and landing
in the response phase makes none and settles the outputs. -/

namespace CrossbarBench

namespace Crossbar

/-- The two crossbars have been set up alike. -/
structure SameSetup (x y : Crossbar) : Prop where
  controllers : x.controllers = y.controllers
  resetLevel : x.resetLevel = y.resetLevel
  delay : ∀ p, (x.memories.get p).delay = (y.memories.get p).delay
  corruption : x.corruption = y.corruption
  spurious : x.spurious = y.spurious

namespace SameSetup

variable {x y z : Crossbar}

theorem refl (x : Crossbar) : x.SameSetup x := ⟨rfl, rfl, fun _ => rfl, rfl, rfl⟩

theorem symm (h : x.SameSetup y) : y.SameSetup x where
  controllers := h.controllers.symm
  resetLevel := h.resetLevel.symm
  delay p := (h.delay p).symm
  corruption := h.corruption.symm
  spurious := h.spurious.symm

theorem trans (h : x.SameSetup y) (h' : y.SameSetup z) : x.SameSetup z where
  controllers := h.controllers.trans h'.controllers
  resetLevel := h.resetLevel.trans h'.resetLevel
  delay p := (h.delay p).trans (h'.delay p)
  corruption := h.corruption.trans h'.corruption
  spurious := h.spurious.trans h'.spurious

theorem edge (x : Crossbar) : x.edge.SameSetup x where
  controllers := rfl
  resetLevel := rfl
  delay p := by
    rw [Crossbar.edge, Table.get_ofFn]
    split
    · exact Memory.delay_edge _ p _
    · rfl
  corruption := rfl
  spurious := rfl

theorem eval (x : Crossbar) : x.eval.SameSetup x := by
  unfold Crossbar.eval
  split
  · exact ⟨rfl, rfl, (edge x).delay, rfl, rfl⟩
  · exact ⟨rfl, rfl, fun _ => rfl, rfl, rfl⟩

theorem dump (x : Crossbar) (time : Nat) : (x.dump time).SameSetup x :=
  ⟨rfl, rfl, fun _ => rfl, rfl, rfl⟩

theorem setClock (x : Crossbar) (high : Bool) : { x with clock := high }.SameSetup x :=
  ⟨rfl, rfl, fun _ => rfl, rfl, rfl⟩

end SameSetup

/-- The outputs are those of the present inputs and memories. -/
structure Settled (x : Crossbar) : Prop where
  ready : x.ready = Vector.ofFn x.readyLevel
  readData : x.readData = Vector.ofFn x.readWord

theorem settled_eval (x : Crossbar) : x.eval.Settled := ⟨rfl, rfl⟩

theorem settled_dump {x : Crossbar} (h : x.Settled) (time : Nat) : (x.dump time).Settled :=
  ⟨h.ready, h.readData⟩

@[simp] theorem clock_eval (x : Crossbar) : x.eval.clock = x.clock := by
  unfold eval
  split <;> rfl

@[simp] theorem lastClock_eval (x : Crossbar) : x.eval.lastClock = x.clock := by
  unfold eval
  split <;> rfl

theorem memories_eval (x : Crossbar) :
    x.eval.memories = if x.clock && !x.lastClock then x.edge.memories else x.memories := by
  unfold eval
  split <;> rfl

/-- Without a rise since the last evaluation the memories stay as they are. -/
theorem memories_eval_of_seen {x : Crossbar} (h : x.lastClock = x.clock) :
    x.eval.memories = x.memories := by
  rw [memories_eval, h, Bool.and_not_self, if_neg Bool.false_ne_true]

/-- An edge looks only at the memories and at what has been set up. -/
theorem SameSetup.edge_congr {x y : Crossbar} (h : x.SameSetup y)
    (hm : x.memories = y.memories) : x.edge.memories = y.edge.memories := by
  simp only [Crossbar.edge, h.controllers, h.resetLevel, hm]

end Crossbar

namespace Testbench

variable {b : Testbench Crossbar}

theorem addressWidth_crossbar (b : Testbench Crossbar) :
    Device.addressWidth b.device = AddressMap.standard.width := rfl

theorem device_sample (b : Testbench Crossbar) (passing : Nat) :
    (b.sample passing).device = b.device.eval.dump b.time := rfl

theorem sameSetup_sample (b : Testbench Crossbar) (passing : Nat) :
    (b.sample passing).device.SameSetup b.device :=
  (Crossbar.SameSetup.dump _ _).trans (Crossbar.SameSetup.eval _)

/-! ### Half cycles -/

theorem sameSetup_halfCycle (b : Testbench Crossbar) (high : Bool) (passing : Nat) :
    (b.halfCycle high passing).device.SameSetup b.device :=
  (sameSetup_sample _ _).trans
    ((Crossbar.SameSetup.setClock _ high).trans (sameSetup_sample b passing))

theorem clock_halfCycle (b : Testbench Crossbar) (high : Bool) (passing : Nat) :
    (b.halfCycle high passing).device.clock = high := by
  rw [halfCycle, device_sample]
  exact Crossbar.clock_eval _

theorem lastClock_halfCycle (b : Testbench Crossbar) (high : Bool) (passing : Nat) :
    (b.halfCycle high passing).device.lastClock = high := by
  rw [halfCycle, device_sample]
  exact Crossbar.lastClock_eval _

theorem settled_halfCycle (b : Testbench Crossbar) (high : Bool) (passing : Nat) :
    (b.halfCycle high passing).device.Settled := by
  rw [halfCycle, device_sample]
  exact Crossbar.settled_dump (Crossbar.settled_eval _) _

theorem memories_fall (h : b.device.lastClock = b.device.clock) :
    b.fall.device.memories = b.device.memories := by
  have h' : { b.device.eval.dump b.time with clock := false }.eval.memories =
      b.device.eval.memories := by
    rw [Crossbar.memories_eval]
    rfl
  rw [← Crossbar.memories_eval_of_seen h, ← h']
  rfl

/-- A rise from a low clock makes one registered update, evaluated before or not. -/
theorem memories_rise (hc : b.device.clock = false) :
    b.rise.device.memories = b.device.edge.memories := by
  have hm : b.device.eval.memories = b.device.memories := by
    rw [Crossbar.memories_eval, hc, Bool.false_and, if_neg Bool.false_ne_true]
  have hl : b.device.eval.lastClock = false := (Crossbar.lastClock_eval _).trans hc
  have h' : { b.device.eval.dump b.time with clock := true }.eval.memories =
      { b.device.eval.dump b.time with clock := true }.edge.memories := by
    rw [Crossbar.memories_eval, if_pos]
    change (true && !b.device.eval.lastClock) = true
    rw [hl]
    rfl
  have hs : { b.device.eval.dump b.time with clock := true }.SameSetup b.device :=
    (Crossbar.SameSetup.setClock _ true).trans
      ((Crossbar.SameSetup.dump _ _).trans (Crossbar.SameSetup.eval _))
  rw [← hs.edge_congr hm, ← h']
  rfl

/-! ### Landing in a phase -/

theorem sameSetup_toStimulus (b : Testbench Crossbar) :
    b.toStimulus.device.SameSetup b.device := by
  unfold toStimulus
  split
  · exact (sameSetup_halfCycle _ _ _).trans (sameSetup_halfCycle b _ _)
  · exact sameSetup_halfCycle b _ _

theorem clock_toStimulus (b : Testbench Crossbar) : b.toStimulus.device.clock = true :=
  clock_halfCycle _ _ _

theorem lastClock_toStimulus (b : Testbench Crossbar) : b.toStimulus.device.lastClock = true :=
  lastClock_halfCycle _ _ _

theorem memories_toStimulus (h : b.device.lastClock = b.device.clock) :
    b.toStimulus.device.memories = b.device.edge.memories := by
  unfold toStimulus
  by_cases hc : b.device.clock = true
  · have hl : b.fall.device.clock = false := clock_halfCycle _ _ _
    rw [Crossbar.device_clock, if_pos hc, memories_rise hl]
    exact (sameSetup_halfCycle b _ _).edge_congr (memories_fall h)
  · rw [Crossbar.device_clock, if_neg hc, memories_rise (by simpa using hc)]

theorem sameSetup_toResponse (b : Testbench Crossbar) :
    b.toResponse.device.SameSetup b.device := by
  unfold toResponse
  split
  · exact sameSetup_halfCycle b _ _
  · exact (sameSetup_halfCycle _ _ _).trans (sameSetup_halfCycle b _ _)

theorem clock_toResponse (b : Testbench Crossbar) : b.toResponse.device.clock = false :=
  clock_halfCycle _ _ _

theorem lastClock_toResponse (b : Testbench Crossbar) :
    b.toResponse.device.lastClock = false :=
  lastClock_halfCycle _ _ _

theorem settled_toResponse (b : Testbench Crossbar) : b.toResponse.device.Settled :=
  settled_halfCycle _ _ _

theorem memories_toResponse (hc : b.device.clock = true) (h : b.device.lastClock = true) :
    b.toResponse.device.memories = b.device.memories := by
  unfold toResponse
  rw [Crossbar.device_clock, if_pos hc]
  exact memories_fall (h.trans hc.symm)

/-! ### Full cycles from the stimulus phase -/

theorem cycle_eq (hc : b.device.clock = true) : b.cycle = b.toResponse.toStimulus := by
  rw [cycle, Crossbar.device_clock, if_pos hc]

theorem sameSetup_cycles (n : Nat) (b : Testbench Crossbar) :
    (cycles n b).device.SameSetup b.device := by
  induction n generalizing b with
  | zero => exact .refl _
  | succ n ih =>
    refine (ih b.cycle).trans ?_
    unfold cycle
    split
    · exact (sameSetup_toStimulus _).trans (sameSetup_toResponse b)
    · exact (sameSetup_toResponse _).trans (sameSetup_toStimulus b)

/-- Cycles that start right after a rising edge end there, after one update each. -/
theorem cycles_stimulus (n : Nat) (hc : b.device.clock = true) (h : b.device.lastClock = true) :
    (cycles n b).device.clock = true ∧ (cycles n b).device.lastClock = true ∧
      (cycles (n + 1) b).device.memories = (cycles n b).device.edge.memories := by
  induction n generalizing b with
  | zero =>
    refine ⟨hc, h, ?_⟩
    have hr : b.toResponse.device.lastClock = b.toResponse.device.clock :=
      (lastClock_toResponse b).trans (clock_toResponse b).symm
    change b.cycle.device.memories = b.device.edge.memories
    rw [cycle_eq hc, memories_toStimulus hr]
    exact (sameSetup_toResponse b).edge_congr (memories_toResponse hc h)
  | succ n ih =>
    have hb : b.cycle.device.clock = true ∧ b.cycle.device.lastClock = true := by
      rw [cycle_eq hc]
      exact ⟨clock_toStimulus _, lastClock_toStimulus _⟩
    exact ih hb.1 hb.2

end Testbench

end CrossbarBench
