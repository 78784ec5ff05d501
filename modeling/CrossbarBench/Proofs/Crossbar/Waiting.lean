import Mathlib.Algebra.GroupWithZero.Nat
import CrossbarBench.Proofs.Crossbar.Arbitration
import CrossbarBench.Proofs.Crossbar.Protocol

/-! How long the ports of a run have to wait. A port that is not yet drained still has to wait
for what it has raised, and then for each of its slots. Every iteration takes one off what
remains of both, whatever the other ports ask for. -/

namespace CrossbarBench

namespace Slot

/-- Iterations that a slot takes at the soonest. -/
def soonest (delays : Table 4 Nat) : Slot → Nat
  | none => 1
  | some q => delays.get (AddressMap.standard.peripheral q.address) + 2

/-- Iterations that a slot takes at the latest. -/
def latest (delays : Table 4 Nat) : Slot → Nat
  | none => 1
  | some q => 3 * delays.get (AddressMap.standard.peripheral q.address) + 4

end Slot

theorem Inputs.target_load (port : Port) (q : Request) (inputs : Inputs) :
    (inputs.load port q).target.1 = AddressMap.standard.peripheral q.address := by
  simp only [target, load, AddressMap.decode, AddressMap.peripheral, AddressMap.mask_mask]

namespace Run

variable {r : Run Crossbar} {k : Nat} {c : Port} {delays : Table 4 Nat}

/-- The memory that the registers of a port address. -/
def addressed (r : Run Crossbar) (c : Port) : Memory :=
  r.bench.device.memories.get (r.bench.device.controllers.get c).target.1

/-- Iterations that remain for a port: the wait for what it has raised, and its slots. -/
def remaining (wait : Memory → Port → Nat) (cost : Slot → Nat) (r : Run Crossbar) (c : Port) :
    Nat :=
  (if (r.requesters.get c).awaiting then wait (r.addressed c) c else 0) +
    ((r.requesters.get c).slots.map cost).sum

/-- A run in step whose memories have the delays asked for and keep to the order of grants. -/
structure Orderly (delays : Table 4 Nat) (r : Run Crossbar) : Prop where
  inStep : r.InStep
  remembers : ∀ p, (r.bench.device.memories.get p).Remembers
  delay : ∀ p, (r.bench.device.memories.get p).delay = delays.get p

namespace Orderly

theorem launch {b : Testbench Crossbar} (hb : ∀ c, (b.device.controllers.get c).Fits c)
    (s : Scenario) : (b.launch .standard s).Orderly s.delays := by
  obtain ⟨hf, -, -, -⟩ := Testbench.fresh_prepare b s.delays
  have hm : ∀ p, (b.launch .standard s).bench.device.memories.get p =
      { Memory.initial with delay := s.delays.get p } := hf.memories
  refine ⟨.launch hb .standard s, fun p => ?_, fun p => ?_⟩
  · rw [hm p]
    exact Memory.remembers_of_free rfl
  · rw [hm p]

theorem memory_iterate (h : r.Orderly delays) (k : Nat) (p : Peripheral) :
    (r.iterate k).bench.device.memories.get p =
      (r.bench.device.memories.get p).edge p r.bench.device.controllers := by
  rw [h.inStep.landed.memories_iterate, Crossbar.memories_edge,
    if_pos h.inStep.landed.resetLevel]

theorem iterate (h : r.Orderly delays) (k : Nat) : (r.iterate k).Orderly delays where
  inStep := h.inStep.iterate k
  remembers p := by
    rw [h.memory_iterate]
    exact (h.remembers p).edge p _
  delay p := by
    rw [h.memory_iterate, Memory.delay_edge]
    exact h.delay p

theorem delay_addressed (h : r.Orderly delays) (c : Port) :
    (r.addressed c).delay = delays.get (r.bench.device.controllers.get c).target.1 :=
  h.delay _

/-! ### Waiting for an answer -/

/-- What is awaited is not yet answered. -/
theorem not_answers (h : r.Orderly delays) (ha : (r.requesters.get c).awaiting = true) :
    (r.addressed c).answers c = false := by
  have hr := h.inStep.request_of_awaiting ha
  rw [h.inStep.awaiting c, hr, Bool.true_and, Crossbar.answered, hr, Bool.true_and] at ha
  exact Bool.not_eq_true' _ |>.mp ha

theorem controllers_iterate_awaiting (ha : (r.requesters.get c).awaiting = true) (k : Nat) :
    (r.iterate k).bench.device.controllers.get c = r.bench.device.controllers.get c := by
  rw [controllers_iterate, Requester.load_awaiting ha]

/-- An iteration takes one off the wait of a port. -/
theorem wait_iterate (h : r.Orderly delays) (ha : (r.requesters.get c).awaiting = true)
    (k : Nat) :
    (r.addressed c).soonest c ≤ ((r.iterate k).addressed c).soonest c + 1 ∧
      ((r.iterate k).addressed c).latest c + 1 ≤ (r.addressed c).latest c := by
  rw [addressed, addressed, controllers_iterate_awaiting ha, h.memory_iterate]
  exact Memory.bounds_edge (h.inStep.request_of_awaiting ha) rfl (h.not_answers ha)

/-- What is raised in an iteration is not answered in it, and has to wait as long as a memory
lets it wait that has just come to it. -/
theorem wait_raised (h : r.Orderly delays) {q : Request}
    (hq : (r.requesters.get c).raised? = some q) (k : Nat) :
    ((r.iterate k).addressed c).soonest c =
        delays.get (AddressMap.standard.peripheral q.address) + 1 ∧
      ((r.iterate k).addressed c).latest c ≤
        3 * delays.get (AddressMap.standard.peripheral q.address) + 3 := by
  have hk := h.iterate k
  have htarget : ((r.iterate k).bench.device.controllers.get c).target.1 =
      AddressMap.standard.peripheral q.address := by
    rw [controllers_iterate, Requester.load_raised hq, Inputs.target_load]
  have hdelay := hk.delay_addressed c
  rw [htarget] at hdelay
  have hgrant : ((r.iterate k).addressed c).grant ≠ some c := fun hg => by
    have hr := Requester.raised?_awaiting (h.inStep.granted_iterate hg).1
    rw [hq] at hr
    cases hr
  rw [Memory.soonest_waiting hgrant, ← hdelay]
  exact ⟨rfl, Memory.latest_le (hk.remembers _) hgrant⟩

/-- An answered port has nothing more to wait for, so the wait need not be cut short. -/
theorem wait_eq (h : r.Orderly delays) (k : Nat)
    (hn : (r.requesters.get c).next.awaiting = true) {wait : Memory → Port → Nat}
    (hw : ∀ m : Memory, m.answers c = true → wait m c = 0) :
    (if ((r.iterate k).requesters.get c).awaiting then wait ((r.iterate k).addressed c) c
      else 0) = wait ((r.iterate k).addressed c) c := by
  rw [h.inStep.landed.requesters_iterate, hn, Bool.true_and]
  cases ha : (r.iterate k).bench.device.answered c with
  | false => rfl
  | true => exact (hw _ ((Bool.and_eq_true _ _).mp ha).2).symm

/-! ### Waiting for a port -/

/-- An iteration takes one off what remains for a port that it does not find drained. -/
theorem remaining_iterate (h : r.Orderly delays) (k : Nat)
    (hd : ((r.iterate k).requesters.get c).drained = false) :
    r.remaining Memory.soonest (Slot.soonest delays) c ≤
        (r.iterate k).remaining Memory.soonest (Slot.soonest delays) c + 1 ∧
      (r.iterate k).remaining Memory.latest (Slot.latest delays) c + 1 ≤
        r.remaining Memory.latest (Slot.latest delays) c := by
  have hreq := h.inStep.landed.requesters_iterate k c
  have hs : ∀ m : Memory, m.answers c = true → m.soonest c = 0 := fun m =>
    Memory.soonest_of_answers
  have hl : ∀ m : Memory, m.answers c = true → m.latest c = 0 := fun m =>
    (Memory.latest_eq_zero_iff m c).mpr
  have hslots : ((r.iterate k).requesters.get c).slots = (r.requesters.get c).next.slots := by
    rw [hreq]
  unfold remaining
  cases ha : (r.requesters.get c).awaiting with
  | true =>
    have hn := Requester.next_awaiting ha
    have hw := h.wait_iterate ha k
    rw [h.wait_eq k (hn.symm ▸ ha) hs, h.wait_eq k (hn.symm ▸ ha) hl, hslots, hn, if_pos rfl,
      if_pos rfl]
    omega
  | false =>
    rw [if_neg Bool.false_ne_true, if_neg Bool.false_ne_true]
    rcases hq : (r.requesters.get c).slots with _ | ⟨_ | q, rest⟩
    · rw [hreq] at hd
      rw [Requester.next_empty ha hq] at hd
      cases hd
    · have hn := Requester.next_idle ha hq
      have hidle : ((r.iterate k).requesters.get c).awaiting = false := by
        rw [hreq, hn, ha, Bool.false_and]
      rw [hidle, hslots, hn]
      simp [Slot.soonest, Slot.latest]
      omega
    · have hn := Requester.next_request ha hq
      have hraised : (r.requesters.get c).raised? = some q := by
        simp [Requester.raised?, ha, hq]
      have hw := h.wait_raised hraised k
      rw [h.wait_eq k (by rw [hn]) hs, h.wait_eq k (by rw [hn]) hl, hslots, hn]
      simp only [List.map_cons, List.sum_cons, Slot.soonest, Slot.latest]
      omega

end Orderly

end Run

end CrossbarBench
