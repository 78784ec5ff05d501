import CrossbarBench.Proofs.Crossbar.Clocking
import CrossbarBench.Proofs.Crossbar.Grants
import CrossbarBench.Proofs.Crossbar.Registers

/-! What a run starts from. Preparing a crossbar leaves it fresh whatever has been done to
it before: right after a rising edge, out of reset, with no request raised and every memory
as it was built, but for the delays asked for. Of the past only the registers that reset
does not clear and the injected faults remain. -/

namespace CrossbarBench

theorem Memory.edge_idle {m : Memory} {p : Peripheral} {controllers : Table 3 Inputs}
    (hg : m.grant = none) (hr : ∀ c, (controllers.get c).request = false) :
    m.edge p controllers = m := by
  rw [edge, serve_none hg]
  rcases arbitrate_cases p controllers none hg with h | ⟨c, hc, -⟩
  · exact h
  · have he := (eligible_iff.mp (List.find?_some hc)).2.1
    rw [hr c] at he
    cases he

namespace Crossbar

/-- The crossbar that a run with these delays starts from. -/
structure Fresh (delays : Table 4 Nat) (x : Crossbar) : Prop where
  clock : x.clock = true
  lastClock : x.lastClock = true
  resetLevel : x.resetLevel = true
  idle : ∀ c, (x.controllers.get c).request = false
  memories : ∀ p, x.memories.get p = { Memory.initial with delay := delays.get p }

theorem edge_idle {x : Crossbar} (hl : x.resetLevel = true)
    (hr : ∀ c, (x.controllers.get c).request = false)
    (hg : ∀ p, (x.memories.get p).grant = none) : x.edge.memories = x.memories :=
  Table.ext_get fun p => by rw [memories_edge, if_pos hl, Memory.edge_idle (hg p) hr]

/-- All delays set, one after another. -/
def setDelays (x : Crossbar) (delays : Table 4 Nat) : Crossbar :=
  (List.finRange 4).foldl (fun x p => x.setDelay p.val (delays.get p)) x

/-- All requests withdrawn, one after another. -/
def withdraw (x : Crossbar) : Crossbar :=
  Port.all.foldl (fun x port => Device.setRequest x port false) x

theorem memories_setDelay (x : Crossbar) (p q : Peripheral) (n : Nat) :
    (x.setDelay p.val n).memories.get q =
      if p = q then { x.memories.get q with delay := n } else x.memories.get q := by
  rw [setDelay, dif_pos p.isLt]
  exact Table.get_modify x.memories p q _

theorem setDelays_frame (x : Crossbar) (delays : Table 4 Nat) :
    x.setDelays delays = { x with memories := (x.setDelays delays).memories } := by
  have h : ∀ (l : List Peripheral) (x : Crossbar),
      l.foldl (fun x p => x.setDelay p.val (delays.get p)) x =
        { x with memories :=
            (l.foldl (fun x p => x.setDelay p.val (delays.get p)) x).memories } := by
    intro l
    induction l with
    | nil => exact fun _ => rfl
    | cons p l ih =>
      intro x
      rw [List.foldl_cons, ih]
      simp only [setDelay, p.isLt, ↓reduceDIte]
  exact h _ x

theorem delay_setDelays (x : Crossbar) (delays : Table 4 Nat) (p : Peripheral) :
    ((x.setDelays delays).memories.get p).delay = delays.get p := by
  have h : ∀ (l : List Peripheral) (x : Crossbar),
      (x.memories.get p).delay = delays.get p ∨ p ∈ l →
      ((l.foldl (fun x p => x.setDelay p.val (delays.get p)) x).memories.get p).delay =
        delays.get p := by
    intro l
    induction l with
    | nil => exact fun x h => h.resolve_right List.not_mem_nil
    | cons q l ih =>
      intro x h
      apply ih
      rw [memories_setDelay]
      by_cases hq : q = p
      · rw [if_pos hq, hq]
        exact .inl rfl
      · rw [if_neg hq]
        exact h.imp_right fun hm => (List.mem_cons.mp hm).resolve_left (Ne.symm hq)
  exact h _ x (.inr (List.mem_finRange p))

theorem controllers_withdraw (x : Crossbar) (c : Port) :
    x.withdraw.controllers.get c = { x.controllers.get c with request := false } := by
  have h : x.withdraw = ((x.register .one ({ · with request := false })).register .two
      ({ · with request := false })).register .three ({ · with request := false }) := by
    simp only [withdraw, Port.all, List.foldl_cons, List.foldl_nil, setRequest_eq]
  rw [h, get_register, get_register, get_register]
  rcases Port.eq_one_or_two_or_three c with rfl | rfl | rfl <;> rfl

theorem withdraw_frame (x : Crossbar) :
    x.withdraw = { x with controllers := x.withdraw.controllers } := by
  simp only [withdraw, Port.all, List.foldl_cons, List.foldl_nil, setRequest_eq, register]

end Crossbar

namespace Testbench

variable {b : Testbench Crossbar}

/-- After a cycle in reset the memories are as they were built. -/
theorem memories_cycles_reset (n : Nat) (hc : b.device.clock = true)
    (h : b.device.lastClock = true) (hl : b.device.resetLevel = false) (p : Peripheral) :
    (cycles (n + 1) b).device.memories.get p =
      { Memory.initial with delay := (b.device.memories.get p).delay } := by
  have hs := sameSetup_cycles n b
  rw [(cycles_stimulus n hc h).2.2, Crossbar.memories_edge, hs.resetLevel, hl,
    if_neg Bool.false_ne_true, Memory.reset, hs.delay]

/-- Cycles without requests change nothing. -/
theorem memories_cycles_idle (n : Nat) (hc : b.device.clock = true)
    (h : b.device.lastClock = true) (hl : b.device.resetLevel = true)
    (hr : ∀ c, (b.device.controllers.get c).request = false)
    (hg : ∀ p, (b.device.memories.get p).grant = none) :
    (cycles n b).device.memories = b.device.memories := by
  induction n with
  | zero => rfl
  | succ n ih =>
    have hs := sameSetup_cycles n b
    rw [(cycles_stimulus n hc h).2.2, hs.edge_congr ih, Crossbar.edge_idle hl hr hg]

theorem fresh_reset (b : Testbench Crossbar) (delays : Table 4 Nat)
    (hd : ∀ p, (b.device.memories.get p).delay = delays.get p)
    (hr : ∀ c, (b.device.controllers.get c).request = false) :
    b.reset.device.Fresh delays ∧ b.reset.device.controllers = b.device.controllers ∧
      b.reset.device.corruption = b.device.corruption ∧
      b.reset.device.spurious = b.device.spurious := by
  let held := b.toStimulus.onDevice (Device.setReset · false)
  let freed := (cycles 10 held).onDevice (Device.setReset · true)
  have hreset : b.reset = cycles 10 freed := rfl
  -- ten cycles with reset low
  have h0 := sameSetup_toStimulus b
  have h1 := sameSetup_cycles 10 held
  have hc1 := cycles_stimulus 10 (b := held) (clock_toStimulus b) (lastClock_toStimulus b)
  have hm1 : ∀ p, freed.device.memories.get p =
      { Memory.initial with delay := delays.get p } := fun p => by
    have hm := memories_cycles_reset 9 (b := held) (clock_toStimulus b)
      (lastClock_toStimulus b) rfl p
    rw [show (held.device.memories.get p).delay = delays.get p from
      (h0.delay p).trans (hd p)] at hm
    exact hm
  have hctl : freed.device.controllers = b.device.controllers :=
    h1.controllers.trans h0.controllers
  -- ten more without a request
  have h2 := sameSetup_cycles 10 freed
  have hc2 := cycles_stimulus 10 (b := freed) hc1.1 hc1.2.1
  have hidle : ∀ c, (freed.device.controllers.get c).request = false := fun c => by
    rw [hctl]
    exact hr c
  have hm2 := memories_cycles_idle 10 (b := freed) hc1.1 hc1.2.1 rfl hidle
    (fun p => by rw [hm1 p]; rfl)
  rw [hreset]
  refine ⟨⟨hc2.1, hc2.2.1, h2.resetLevel, fun c => ?_, fun p => ?_⟩, ?_, ?_, ?_⟩
  · rw [h2.controllers]
    exact hidle c
  · rw [hm2]
    exact hm1 p
  · exact h2.controllers.trans hctl
  · exact h2.corruption.trans (h1.corruption.trans h0.corruption)
  · exact h2.spurious.trans (h1.spurious.trans h0.spurious)

/-- A prepared crossbar is fresh, and its injected faults and registers are the old ones
with the requests withdrawn. -/
theorem fresh_prepare (b : Testbench Crossbar) (delays : Table 4 Nat) :
    (b.prepare delays).device.Fresh delays ∧
      (∀ c, (b.prepare delays).device.controllers.get c =
        { b.device.controllers.get c with request := false }) ∧
      (b.prepare delays).device.corruption = b.device.corruption ∧
      (b.prepare delays).device.spurious = b.device.spurious := by
  let set := b.device.setDelays delays
  have hp : b.prepare delays = (b.onDevice fun x => (x.setDelays delays).withdraw).reset := rfl
  have hw : set.withdraw = { set with controllers := set.withdraw.controllers } :=
    Crossbar.withdraw_frame set
  have hs : set = { b.device with memories := set.memories } :=
    Crossbar.setDelays_frame b.device delays
  have hctl : ∀ c, set.withdraw.controllers.get c =
      { b.device.controllers.get c with request := false } := fun c => by
    rw [Crossbar.controllers_withdraw, hs]
  obtain ⟨hf, hc, hm, hk⟩ := fresh_reset (b.onDevice fun x => (x.setDelays delays).withdraw)
    delays
    (fun p => by
      change (set.withdraw.memories.get p).delay = delays.get p
      rw [hw]
      exact Crossbar.delay_setDelays b.device delays p)
    (fun c => by
      change (set.withdraw.controllers.get c).request = false
      rw [hctl])
  rw [hp]
  refine ⟨hf, fun c => ?_, hm.trans ?_, hk.trans ?_⟩
  · rw [hc]
    exact hctl c
  · change set.withdraw.corruption = b.device.corruption
    rw [hw, hs]
  · change set.withdraw.spurious = b.device.spurious
    rw [hw, hs]

end Testbench

end CrossbarBench
