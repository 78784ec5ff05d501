import CrossbarBench.Proofs.Crossbar.Iteration
import CrossbarBench.Proofs.Crossbar.Prologue
import CrossbarBench.Proofs.Run.Loop

/-! Bench and crossbar in step. Between two iterations a request is raised exactly while it
is awaited or has just been answered, and a memory is granted only to a controller that
requests it. Both hold from the prepared bench on, whatever the delays, the slots and the
injected faults. -/

namespace CrossbarBench

namespace Requester

variable {q : Requester} {port : Port} {inputs : Inputs}

theorem load_awaiting (h : q.awaiting = true) : q.load port inputs = inputs := if_pos h

theorem load_raised {request : Request} (h : q.raised? = some request) :
    q.load port inputs = inputs.load port request := by
  cases ha : q.awaiting with
  | true =>
    rw [raised?_awaiting ha] at h
    cases h
  | false => simp [load, ha, h]

theorem load_idle (ha : q.awaiting = false) (h : q.raised? = none) :
    q.load port inputs = { inputs with request := false } := by
  simp [load, ha, h]

/-- After a feed the request is raised exactly where an answer is awaited. -/
theorem request_load (h : q.awaiting = true → inputs.request = true) :
    (q.load port inputs).request = q.next.awaiting := by
  rw [awaiting_next]
  cases ha : q.awaiting with
  | true => rw [load_awaiting ha, h ha, Bool.true_or]
  | false =>
    cases hr : q.raised? with
    | none => rw [load_idle ha hr]; rfl
    | some request => rw [load_raised hr]; rfl

end Requester

namespace Run

variable {r : Run Crossbar} {k : Nat}

structure InStep (r : Run Crossbar) : Prop where
  landed : r.Landed
  coherent : r.bench.device.Coherent
  awaiting : ∀ c, (r.requesters.get c).awaiting =
    ((r.bench.device.controllers.get c).request && !r.bench.device.answered c)
  drained : ∀ c, (r.requesters.get c).drained = true →
    (r.bench.device.controllers.get c).request = false ∧ (r.requesters.get c).slots = []

namespace InStep

theorem request_of_awaiting (h : r.InStep) {c : Port}
    (ha : (r.requesters.get c).awaiting = true) :
    (r.bench.device.controllers.get c).request = true := by
  rw [h.awaiting c, Bool.and_eq_true] at ha
  exact ha.1

theorem not_awaiting_of_drained (h : r.InStep) {c : Port}
    (hd : (r.requesters.get c).drained = true) : (r.requesters.get c).awaiting = false := by
  rw [h.awaiting c, (h.drained c hd).1, Bool.false_and]

/-- What an iteration leaves raised is what its feed left awaited. -/
theorem request_iterate (h : r.InStep) (k : Nat) (c : Port) :
    ((r.iterate k).bench.device.controllers.get c).request =
      (r.requesters.get c).next.awaiting := by
  rw [controllers_iterate, Requester.request_load h.request_of_awaiting]

/-- A port that holds a grant after the update was awaiting before it, so its registers are
not touched when it is fed. -/
theorem granted_iterate (h : r.InStep) {p : Peripheral} {c : Port}
    (hg : ((r.iterate k).bench.device.memories.get p).grant = some c) :
    (r.requesters.get c).awaiting = true ∧
      (r.bench.device.controllers.get c).target.1 = p := by
  rw [h.landed.memories_iterate] at hg
  obtain ⟨hr, ht, ha⟩ := h.coherent.grant_edge h.landed.resetLevel hg
  exact ⟨by rw [h.awaiting c, hr, ha]; rfl, ht⟩

theorem iterate (h : r.InStep) (k : Nat) : (r.iterate k).InStep where
  landed := h.landed.iterate k
  coherent p c hg := by
    obtain ⟨ha, ht⟩ := h.granted_iterate hg
    rw [controllers_iterate, Requester.load_awaiting ha]
    exact ⟨h.request_of_awaiting ha, ht⟩
  awaiting c := by
    rw [h.landed.requesters_iterate, h.request_iterate]
  drained c hd := by
    rw [h.landed.requesters_iterate] at hd ⊢
    have hfree : (r.requesters.get c).awaiting = false ∧ (r.requesters.get c).slots = [] :=
      ((Requester.drained_next _).mp hd).elim
        (fun hd => ⟨h.not_awaiting_of_drained hd, (h.drained c hd).2⟩) id
    rw [h.request_iterate, Requester.next_empty hfree.1 hfree.2]
    exact hfree

theorem launch {b : Testbench Crossbar} (hb : ∀ c, (b.device.controllers.get c).Fits c)
    (map : AddressMap) (s : Scenario) : (b.launch map s).InStep := by
  obtain ⟨hf, hc, -, -⟩ := Testbench.fresh_prepare b s.delays
  have hq := b.get_requesters_launch map s
  refine ⟨⟨hf.resetLevel, hf.lastClock.trans hf.clock.symm, fun c => ?_⟩, ?_, ?_, ?_⟩
  · change ((b.prepare s.delays).device.controllers.get c).Fits c
    rw [hc c]
    exact ⟨(hb c).address, (hb c).enables, (hb c).readOnly⟩
  · intro p c hg
    change ((b.prepare s.delays).device.memories.get p).grant = some c at hg
    rw [hf.memories p] at hg
    cases hg
  · intro c
    change _ = (((b.prepare s.delays).device.controllers.get c).request && _)
    rw [hq c, hf.idle c, Bool.false_and]
  · intro c hd
    rw [hq c] at hd
    cases hd

end InStep

end Run

end CrossbarBench
