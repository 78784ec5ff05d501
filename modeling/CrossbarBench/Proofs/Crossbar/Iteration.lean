import CrossbarBench.Proofs.Crossbar.Clocking
import CrossbarBench.Proofs.Crossbar.Grants
import CrossbarBench.Proofs.Crossbar.Registers
import CrossbarBench.Proofs.Run.Response
import CrossbarBench.Proofs.Run.Stimulus

/-! One iteration of a run on a crossbar, in closed form. From a landing, every memory makes
one registered update, every requester loads the registers of its own port, and the entries
of the ledger are the answers that memories and registers then give. Which requests are
answered depends on neither injected fault. -/

namespace CrossbarBench

/-! ### Handshakes -/

namespace Crossbar

variable {x : Crossbar} {c : Port}

/-- What a port shows while it is answered. -/
def answer (x : Crossbar) (c : Port) : Handshake where
  address := (x.controllers.get c).address
  isWrite := (x.controllers.get c).writeEnable
  enables := (x.controllers.get c).enables
  writeData := (x.controllers.get c).data
  readData := x.readWord c

/-- A ready without a request is never taken for a handshake. -/
theorem handshake?_eq (hs : x.Settled) (hf : (x.controllers.get c).Fits c) :
    Device.handshake? x c = if x.answered c then some (x.answer c) else none := by
  have hready : x.ready.get c = x.readyLevel c := by rw [hs.ready, Table.get_ofFn]
  have hdata : x.readData.get c = x.readWord c := by rw [hs.readData, Table.get_ofFn]
  have hboth : ((x.controllers.get c).request && x.readyLevel c) = x.answered c := by
    unfold readyLevel answered
    cases hr : (x.controllers.get c).request <;> simp [hr]
  simp only [Device.handshake?, request_eq, ready_eq, hready, hboth, address_eq, hf.address,
    writeEnable?_eq, byteEnables?_eq, writeData?_eq, readData_eq, hdata, hf.enables, answer]
  cases hw : canWrite c with
  | true => simp
  | false =>
    obtain ⟨he, hl, hd⟩ := hf.readOnly hw
    simp [he, hl, hd]

theorem readyUnasked_eq (hs : x.Settled) :
    Device.readyUnasked x c = (x.spurious == some c && !(x.controllers.get c).request) := by
  have hready : x.ready.get c = x.readyLevel c := by rw [hs.ready, Table.get_ofFn]
  rw [Device.readyUnasked, request_eq, ready_eq, hready, readyLevel, answered]
  cases (x.controllers.get c).request <;> simp

theorem entries_eq (hs : x.Settled) (hf : ∀ c, (x.controllers.get c).Fits c) (k : Nat) :
    Device.entries x k =
      (Port.all.filter x.answered).map fun c => (x.answer c).completion k c := by
  have he : ∀ c, Device.completed? x k c =
      if x.answered c then some ((x.answer c).completion k c) else none := by
    intro c
    rw [Device.completed?, handshake?_eq hs (hf c)]
    split <;> rfl
  rw [Device.entries]
  induction Port.all with
  | nil => rfl
  | cons c ports ih =>
    rw [List.filterMap_cons, List.filter_cons, he c, ih]
    cases x.answered c <;> rfl

end Crossbar

/-! ### Registers -/

/-- The registers of a port after its requester has been fed. -/
def Requester.load (q : Requester) (port : Port) (inputs : Inputs) : Inputs :=
  if q.awaiting then inputs
  else match q.raised? with
    | some request => inputs.load port request
    | none => { inputs with request := false }

theorem Requester.actOn_eq (q : Requester) (port : Port) (x : Crossbar) :
    q.actOn port x = x.register port (q.load port) := by
  have hid : x.register port id = x := by
    have h : x.controllers.modify port id = x.controllers :=
      Table.ext_get fun c => by rw [Table.get_modify, id, ite_self]
    rw [Crossbar.register, h]
  unfold actOn
  cases h : q.awaiting with
  | true =>
    rw [if_pos rfl, show q.load port = id by funext; rw [load, if_pos h]; rfl, hid]
  | false =>
    rw [if_neg Bool.false_ne_true]
    cases hr : q.raised? with
    | none =>
      rw [Crossbar.setRequest_eq]
      exact congrArg (x.register port) (funext fun inputs => by simp [load, h, hr])
    | some request =>
      refine (Crossbar.issue_eq x port request).trans ?_
      exact congrArg (x.register port) (funext fun inputs => by simp [load, h, hr])

theorem Inputs.Fits.load {port : Port} {inputs : Inputs} (h : inputs.Fits port) (q : Request) :
    (inputs.load port q).Fits port where
  address := AddressMap.mask_mask .standard q.address
  enables := by
    unfold Inputs.load
    dsimp only
    split
    · rw [BitVec.and_assoc, BitVec.and_self]
    · exact h.enables
  readOnly hw := by simpa [Inputs.load, hw] using h.readOnly hw

theorem Requester.fits_load {q : Requester} {port : Port} {inputs : Inputs}
    (h : inputs.Fits port) : (q.load port inputs).Fits port := by
  unfold load
  split
  · exact h
  · split
    · exact h.load _
    · exact ⟨h.address, h.enables, h.readOnly⟩

/-! ### The iteration -/

namespace Run

variable {r : Run Crossbar} {k : Nat}

/-- The crossbar has landed between two iterations, out of reset. -/
structure Landed (r : Run Crossbar) : Prop where
  resetLevel : r.bench.device.resetLevel = true
  seen : r.bench.device.lastClock = r.bench.device.clock
  fits : ∀ c, (r.bench.device.controllers.get c).Fits c

theorem device_stimulate_crossbar (r : Run Crossbar) :
    r.stimulate.bench.device = { r.bench.toStimulus.device with
      controllers := r.stimulate.bench.device.controllers } ∧
    ∀ c, r.stimulate.bench.device.controllers.get c =
      (r.requesters.get c).load c (r.bench.device.controllers.get c) := by
  have hd : r.stimulate.bench.device =
      ((r.bench.toStimulus.device.register .one ((r.requesters.get Port.one).load .one)).register
        .two ((r.requesters.get Port.two).load .two)).register
          .three ((r.requesters.get Port.three).load .three) := by
    rw [device_stimulate]
    simp only [Port.all, List.foldl_cons, List.foldl_nil, Requester.actOn_eq]
  refine ⟨by rw [hd]; rfl, fun c => ?_⟩
  rw [hd, Crossbar.get_register, Crossbar.get_register, Crossbar.get_register,
    (Testbench.sameSetup_toStimulus r.bench).controllers]
  rcases Port.eq_one_or_two_or_three c with rfl | rfl | rfl <;> rfl

theorem settled_iterate (r : Run Crossbar) (k : Nat) : (r.iterate k).bench.device.Settled := by
  rw [device_iterate]
  exact Testbench.settled_toResponse _

theorem controllers_iterate (r : Run Crossbar) (k : Nat) (c : Port) :
    (r.iterate k).bench.device.controllers.get c =
      (r.requesters.get c).load c (r.bench.device.controllers.get c) := by
  rw [device_iterate, (Testbench.sameSetup_toResponse _).controllers]
  exact (device_stimulate_crossbar r).2 c

theorem corruption_iterate (r : Run Crossbar) (k : Nat) :
    (r.iterate k).bench.device.corruption = r.bench.device.corruption := by
  rw [device_iterate, (Testbench.sameSetup_toResponse _).corruption,
    (device_stimulate_crossbar r).1]
  exact (Testbench.sameSetup_toStimulus r.bench).corruption

theorem spurious_iterate (r : Run Crossbar) (k : Nat) :
    (r.iterate k).bench.device.spurious = r.bench.device.spurious := by
  rw [device_iterate, (Testbench.sameSetup_toResponse _).spurious,
    (device_stimulate_crossbar r).1]
  exact (Testbench.sameSetup_toStimulus r.bench).spurious

namespace Landed

/-- One registered update, made with the registers as they were before the ports are fed. -/
theorem memories_iterate (h : r.Landed) (k : Nat) :
    (r.iterate k).bench.device.memories = r.bench.device.edge.memories := by
  have hs := (device_stimulate_crossbar r).1
  rw [device_iterate, Testbench.memories_toResponse, hs]
  · exact Testbench.memories_toStimulus h.seen
  · rw [hs]
    exact Testbench.clock_toStimulus r.bench
  · rw [hs]
    exact Testbench.lastClock_toStimulus r.bench

theorem iterate (h : r.Landed) (k : Nat) : (r.iterate k).Landed where
  resetLevel := by
    rw [device_iterate, (Testbench.sameSetup_toResponse _).resetLevel,
      (device_stimulate_crossbar r).1]
    exact (Testbench.sameSetup_toStimulus r.bench).resetLevel.trans h.resetLevel
  seen := by
    rw [device_iterate, Testbench.lastClock_toResponse, Testbench.clock_toResponse]
  fits c := by
    rw [controllers_iterate]
    exact Requester.fits_load (h.fits c)

/-- The entries that iteration `k` makes. -/
theorem entries_iterate (h : r.Landed) (k : Nat) :
    Device.entries r.stimulate.bench.toResponse.device k =
      (Port.all.filter (r.iterate k).bench.device.answered).map fun c =>
        ((r.iterate k).bench.device.answer c).completion k c := by
  rw [← device_iterate r k, Crossbar.entries_eq (settled_iterate r k) (h.iterate k).fits]

theorem requesters_iterate (h : r.Landed) (k : Nat) (c : Port) :
    (r.iterate k).requesters.get c =
      { (r.requesters.get c).next with
        awaiting := (r.requesters.get c).next.awaiting &&
          !(r.iterate k).bench.device.answered c } := by
  rw [Run.iterate, requesters_respond, ← Run.iterate, ← device_iterate r k,
    Crossbar.handshake?_eq (settled_iterate r k) ((h.iterate k).fits c), requesters_stimulate]
  cases (r.iterate k).bench.device.answered c <;> simp

end Landed

end Run

end CrossbarBench
