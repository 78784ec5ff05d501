import CrossbarBench.Proofs.Crossbar.Clocking
import CrossbarBench.Proofs.Crossbar.Grants
import CrossbarBench.Proofs.Crossbar.History

/-! When a crossbar shows ready. Once it has been evaluated a request is ready exactly while the
memory that it addresses holds its grant for it, with the delay over, and a port without a
request only where a spurious ready is injected. So ready requests address different memories,
whatever grants are left over elsewhere. A testbench dumps only what it has just evaluated, so
its samples show the same. -/

namespace CrossbarBench

namespace Crossbar

variable {x : Crossbar} {c d : Port}

/-- The place that the address of a port selects. -/
def selected (x : Crossbar) (c : Port) : Peripheral × Offset :=
  AddressMap.standard.decode (Device.address x c)

/-- The memory that a port selects holds its grant for the port, with the delay over. -/
def Granted (x : Crossbar) (c : Port) : Prop :=
  (x.memories.get (x.selected c).1).grant = some c ∧
    (x.memories.get (x.selected c).1).delay ≤ (x.memories.get (x.selected c).1).waited

/-- What the outputs of an evaluated crossbar tell. -/
structure Exclusive (x : Crossbar) : Prop where
  /-- A request is ready while it is granted. -/
  asked : ∀ c, Device.request x c = true → (Device.ready x c = true ↔ x.Granted c)
  /-- Only a spurious ready stands without a request. -/
  unasked : ∀ c, Device.request x c = false → (Device.ready x c = true ↔ x.spurious = some c)
  apart : ∀ c d, c ≠ d → Device.request x c = true → Device.ready x c = true →
    Device.request x d = true → Device.ready x d = true → (x.selected c).1 ≠ (x.selected d).1
  answer : ∀ c, Device.request x c = true → Device.ready x c = true →
    Device.readData x c =
      (x.memories.get (x.selected c).1).words.get (x.selected c).2 ^^^ x.corruption
  silent : ∀ c, Device.request x c = false ∨ Device.ready x c = false → Device.readData x c = 0

theorem selected_eq (x : Crossbar) (c : Port) : x.selected c = (x.controllers.get c).target := by
  rw [selected, address_eq, AddressMap.decode_mask, Inputs.target]

theorem granted_iff (h : Device.request x c = true) : x.Granted c ↔ x.answered c = true := by
  rw [request_eq] at h
  rw [answered_iff, Granted, selected_eq]
  exact ⟨fun hg => ⟨h, hg⟩, fun hg => hg.2⟩

namespace Settled

theorem ready_iff (h : x.Settled) (c : Port) :
    Device.ready x c = true ↔
      x.answered c = true ∨ x.spurious = some c ∧ Device.request x c = false := by
  rw [ready_eq, h.ready, Table.get_ofFn, readyLevel, request_eq]
  simp

theorem readData_eq (h : x.Settled) (c : Port) : Device.readData x c = x.readWord c := by
  rw [Crossbar.readData_eq, h.readData, Table.get_ofFn]

/-- A spurious ready is never taken for an answer. -/
theorem ready_iff_answered (h : x.Settled) (hr : Device.request x c = true) :
    Device.ready x c = true ↔ x.answered c = true := by
  rw [h.ready_iff, hr]
  simp

theorem not_answered (hr : Device.request x c = false) : x.answered c = false := by
  rw [request_eq] at hr
  simp [answered, hr]

theorem exclusive (h : x.Settled) : x.Exclusive where
  asked c hr := by rw [h.ready_iff_answered hr, granted_iff hr]
  unasked c hr := by
    rw [h.ready_iff, not_answered hr, hr]
    simp
  apart c d hne hrc hc hrd hd hs := by
    rw [h.ready_iff_answered hrc] at hc
    rw [h.ready_iff_answered hrd] at hd
    rw [selected_eq, selected_eq] at hs
    exact hne (answered_inj hc hd hs)
  answer c hr hc := by
    rw [h.ready_iff_answered hr] at hc
    rw [h.readData_eq, readWord, if_pos hc, selected_eq]
  silent c hs := by
    have ha : x.answered c = false := by
      rcases hs with hr | hn
      · exact not_answered hr
      · rw [Bool.eq_false_iff] at hn ⊢
        exact fun ha => hn ((h.ready_iff c).mpr (.inl ha))
    rw [h.readData_eq, readWord, ha, if_neg Bool.false_ne_true]

end Settled

/-! ### Samples -/

/-- The dumps that were kept. -/
def samples (x : Crossbar) : List Sample := (x.trace.getD #[]).toList

theorem mem_samples_dump {time : Nat} {sample : Sample} (h : sample ∈ (x.dump time).samples) :
    sample ∈ x.samples ∨
      sample = ⟨time, x.clock, x.controllers.map Inputs.request, x.ready⟩ := by
  unfold samples dump at h
  unfold samples
  cases ht : x.trace with
  | none => simp [ht] at h
  | some kept => simpa [ht] using h

theorem samples_eval (x : Crossbar) : x.eval.samples = x.samples := by
  unfold eval
  split <;> rfl

/-- No sample shows a port ready without a request, but for the one port given. -/
def Quiet (port : Option Port) (x : Crossbar) : Prop :=
  x.spurious = port ∧ ∀ sample ∈ x.samples, ∀ c,
    sample.ready.get c = true → sample.request.get c = true ∨ port = some c

theorem quiet_withTrace (x : Crossbar) : x.withTrace.Quiet x.spurious := by
  refine ⟨rfl, fun sample hm => ?_⟩
  cases hm

theorem quiet_sample {port : Option Port} (h : x.Quiet port) (time : Nat) :
    (x.eval.dump time).Quiet port := by
  have hs : x.eval.spurious = port := (SameSetup.eval x).spurious.trans h.1
  refine ⟨hs, fun sample hm c hready => ?_⟩
  rcases mem_samples_dump hm with hm | rfl
  · rw [samples_eval] at hm
    exact h.2 sample hm c hready
  · rw [← ready_eq, (settled_eval x).ready_iff] at hready
    rcases hready with ha | ⟨hp, -⟩
    · left
      rw [Table.get_map]
      exact ((answered_iff _ c).mp ha).1
    · exact .inr (hs.symm.trans hp)

theorem closed_quiet (port : Option Port) : Device.Closed (Quiet port) where
  sample _ time h := quiet_sample h time
  setClock _ _ h := h
  setReset _ _ h := h
  setDelay x peripheral delay h := by
    rw [device_setDelay, setDelay]
    split <;> exact h
  drive x port signal value h := by
    rw [device_drive, drive]
    split <;> exact h

end Crossbar

namespace Testbench

/-- The call leaves it to the testbench to dump, and injects no ready. -/
def Call.regular : Call → Bool
  | .device (.dump _) | .device (.withSpuriousReady _) => false
  | _ => true

theorem quiet_apply {port : Option Port} {x : Crossbar} (h : x.Quiet port) {call : Crossbar.Call}
    (hc : (Call.device call).regular = true) : (call.apply x).Quiet port := by
  have hclosed := Crossbar.closed_quiet port
  cases call with
  | eval =>
    refine ⟨(Crossbar.SameSetup.eval x).spurious.trans h.1, ?_⟩
    rw [Crossbar.Call.apply, Crossbar.samples_eval]
    exact h.2
  | setDelay peripheral delay => exact hclosed.setDelay x peripheral delay h
  | drive port signal value => exact hclosed.drive x port signal value h
  | withTrace =>
    rw [← h.1]
    exact x.quiet_withTrace
  | setClock | setReset | withCorruption => exact h
  | dump | withSpuriousReady => cases hc

/-- Whatever has been done to a crossbar, once it is evaluated its ready outputs are exclusive
and never idle. So is every sample that a testbench takes, whatever is done in between: only the
port of a spurious ready is ever ready without a request. -/
theorem ready_exclusive_never_idle :
    (∀ x : Crossbar, x.eval.Exclusive) ∧
    ∀ (x : Crossbar) (calls : List Call), (∀ call ∈ calls, call.regular = true) →
      ∀ sample ∈ ((new x.withTrace).after calls).device.samples, ∀ c,
        sample.ready.get c = true → sample.request.get c = true ∨ x.spurious = some c := by
  refine ⟨fun x => (Crossbar.settled_eval x).exclusive, fun x calls hcalls => ?_⟩
  have hnew : (new x.withTrace).device.Quiet x.spurious :=
    Crossbar.quiet_sample x.quiet_withTrace 0
  exact (device_after (Crossbar.closed_quiet x.spurious) calls
    (fun c hm _ hx => quiet_apply hx (hcalls (.device c) hm)) hnew).2

/-- A request is withdrawn and another redirected while they are granted, the delays change, and
a run is cut off on a bench with a spurious ready. -/
theorem ready_exclusive_never_idle_of_disturbed :
    let x := Crossbar.initial.withSpuriousReady .three
    let calls : List Call := [.setRequest .one true, .setRequest .two true, .toStimulus,
      .setRequest .one false, .setAddress .two 0x4001, .device (.setDelay 1 2), .toResponse,
      .toStimulus, .device .eval, .perform ((Scenario.blank "cut").withLimit 2), .reset]
    (∀ call ∈ calls, call.regular = true) ∧
      ∀ sample ∈ ((new x.withTrace).after calls).device.samples, ∀ c,
        sample.ready.get c = true → sample.request.get c = true ∨ x.spurious = some c :=
  have hcalls := by decide
  ⟨hcalls, ready_exclusive_never_idle.2 _ _ hcalls⟩

end Testbench

end CrossbarBench
