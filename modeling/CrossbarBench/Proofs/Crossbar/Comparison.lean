import CrossbarBench.Proofs.Bench.Time
import CrossbarBench.Proofs.Crossbar.Service
import CrossbarBench.Proofs.Run.Unroll

/-! Two runs of one scenario side by side. What the registers of a port hold matters only while
its request is raised, and no decision depends on an injected fault. So the runs go in parallel,
whatever the crossbars have been through: they take the same slots and complete the same requests,
and differ only in how read data is corrupted and in when it all happens. -/

namespace CrossbarBench

namespace Completion

/-- The completion with the bits of a mask flipped in what was read. -/
def corrupt (mask : Word) (c : Completion) : Completion :=
  match c.access with
  | .read data => { c with access := .read (data ^^^ mask) }
  | .write .. => c

theorem corrupt_read {c : Completion} {data : Word} (mask : Word) (h : c.access = .read data) :
    c.corrupt mask = { c with access := .read (data ^^^ mask) } := by
  simp only [corrupt, h]

theorem corrupt_write {c : Completion} {enables : ByteEnables} {data : Word} (mask : Word)
    (h : c.access = .write enables data) : c.corrupt mask = c := by
  simp only [corrupt, h]

theorem corrupt_zero (c : Completion) : c.corrupt 0 = c := by
  cases h : c.access with
  | read data =>
    have hz : data ^^^ 0 = data := BitVec.xor_zero
    rw [corrupt_read 0 h, hz, ← h]
  | write enables data => exact corrupt_write 0 h

theorem map_corrupt_zero (ledger : List Completion) : ledger.map (corrupt 0) = ledger := by
  rw [funext corrupt_zero, List.map_id']

theorem absorb_corrupt (mask : Word) (s : Shadow) (c : Completion) :
    s.absorb (c.corrupt mask) = s.absorb c := by
  cases h : c.access with
  | read data => rw [corrupt_read mask h, Shadow.absorb, Shadow.absorb, h]
  | write enables data => rw [corrupt_write mask h]

end Completion

/-! ### Registers -/

namespace Inputs

/-- Registers that ask for the same: the request, and while it is raised the word that it is for and
what is to be done to it. Of the address only what is decoded counts. -/
structure SameDemand (i j : Inputs) : Prop where
  request : i.request = j.request
  target : j.request = true → i.target = j.target
  writeEnable : j.request = true → i.writeEnable = j.writeEnable
  written : j.request = true → j.writeEnable = true → i.enables = j.enables ∧ i.data = j.data

/-- Registers that show the same: the request, and while it is raised what goes with it. -/
structure SameShown (i j : Inputs) : Prop where
  request : i.request = j.request
  address : j.request = true → i.address = j.address
  writeEnable : j.request = true → i.writeEnable = j.writeEnable
  written : j.request = true → j.writeEnable = true → i.enables = j.enables ∧ i.data = j.data

variable {i j : Inputs} {port : Port}

theorem SameShown.sameDemand (h : i.SameShown j) : i.SameDemand j where
  request := h.request
  target hr := congrArg AddressMap.standard.decode (h.address hr)
  writeEnable := h.writeEnable
  written := h.written

theorem SameShown.of_idle (hi : i.request = false) (hj : j.request = false) :
    i.SameShown j where
  request := hi.trans hj.symm
  address h := by
    rw [hj] at h
    cases h
  writeEnable h := by
    rw [hj] at h
    cases h
  written h := by
    rw [hj] at h
    cases h

theorem Carries.sameShown {q : Request} (hi : i.Carries port q) (hj : j.Carries port q)
    (hr : i.request = j.request) : i.SameShown j where
  request := hr
  address _ := hi.address.trans hj.address.symm
  writeEnable _ := hi.writeEnable.trans hj.writeEnable.symm
  written _ hw := by
    obtain ⟨he, hd⟩ := hj.written hw
    obtain ⟨he', hd'⟩ := hi.written (by rw [hi.writeEnable, ← hj.writeEnable, hw])
    exact ⟨he'.trans he.symm, hd'.trans hd.symm⟩

/-- What is left in the registers of a port does not show once it is fed. -/
theorem SameShown.load (h : i.SameShown j) (hi : i.Fits port) (hj : j.Fits port)
    (q : Requester) : (q.load port i).SameShown (q.load port j) := by
  cases ha : q.awaiting with
  | true => rwa [Requester.load_awaiting ha, Requester.load_awaiting ha]
  | false =>
    cases hr : q.raised? with
    | none =>
      rw [Requester.load_idle ha hr, Requester.load_idle ha hr]
      exact .of_idle rfl rfl
    | some request =>
      rw [Requester.load_raised hr, Requester.load_raised hr]
      exact (hi.carries_load request).sameShown (hj.carries_load request) rfl

end Inputs

namespace Memory

variable {controllers others : Table 3 Inputs}

theorem transfer_congr (m : Memory) {i j : Inputs} (h : i.SameDemand j) (hr : j.request = true) :
    m.transfer i = m.transfer j := by
  rw [transfer, transfer, h.writeEnable hr]
  cases hw : j.writeEnable with
  | false => rw [if_neg Bool.false_ne_true, if_neg Bool.false_ne_true]
  | true =>
    obtain ⟨he, hd⟩ := h.written hr hw
    have ho : AddressMap.offset i.address = AddressMap.offset j.address :=
      congrArg Prod.snd (h.target hr)
    rw [ho, he, hd]

theorem serve_congr (m : Memory) (h : ∀ c, (controllers.get c).SameDemand (others.get c)) :
    m.serve controllers = m.serve others := by
  cases hg : m.grant with
  | none => rw [serve_none hg, serve_none hg]
  | some c =>
    have hr := (h c).request
    cases ho : (others.get c).request with
    | false =>
      rw [ho] at hr
      rw [serve_withdrawn hg hr, serve_withdrawn hg ho]
    | true =>
      rw [ho] at hr
      by_cases hd : m.delay ≤ m.waited
      · rw [serve_answered hg hr hd, serve_answered hg ho hd, transfer_congr m (h c) ho]
      · have hlt := Nat.not_le.mp hd
        rw [serve_waiting hg hr hlt, serve_waiting hg ho hlt]

theorem eligible_congr (p : Peripheral) (served : Option Port)
    (h : ∀ c, (controllers.get c).SameDemand (others.get c)) :
    eligible p controllers served = eligible p others served := by
  funext c
  unfold eligible
  rw [(h c).request]
  cases hr : (others.get c).request with
  | false => simp
  | true => rw [(h c).target hr]

theorem edge_congr (m : Memory) (p : Peripheral)
    (h : ∀ c, (controllers.get c).SameDemand (others.get c)) :
    m.edge p controllers = m.edge p others := by
  simp only [edge, arbitrate, serve_congr m h, eligible_congr p _ h]

end Memory

/-! ### Crossbars -/

namespace Crossbar

theorem word_congr {x y : Crossbar} (h : x.memories = y.memories) (p o : Nat) :
    x.word p o = y.word p o := by
  rw [word, word, h]

/-- Crossbars that are asked for the same and hold the same. -/
structure SameCourse (x y : Crossbar) : Prop where
  controllers : ∀ c, (x.controllers.get c).SameDemand (y.controllers.get c)
  memories : x.memories = y.memories

namespace SameCourse

variable {x y : Crossbar}

theorem memories_edge (h : x.SameCourse y) (hr : x.resetLevel = y.resetLevel) :
    x.edge.memories = y.edge.memories :=
  Table.ext_get fun p => by
    rw [Crossbar.memories_edge, Crossbar.memories_edge, hr, h.memories,
      Memory.edge_congr _ p h.controllers]

theorem answered (h : x.SameCourse y) (c : Port) : x.answered c = y.answered c := by
  unfold Crossbar.answered
  dsimp only
  rw [(h.controllers c).request, h.memories]
  cases hr : (y.controllers.get c).request with
  | false => rfl
  | true => rw [(h.controllers c).target hr]

end SameCourse

/-- Crossbars that show the same but for their injected faults. -/
structure SameButFaults (x y : Crossbar) : Prop where
  controllers : ∀ c, (x.controllers.get c).SameShown (y.controllers.get c)
  memories : x.memories = y.memories

namespace SameButFaults

variable {x y : Crossbar} {c : Port}

theorem sameCourse (h : x.SameButFaults y) : x.SameCourse y :=
  ⟨fun c => (h.controllers c).sameDemand, h.memories⟩

/-- An answer differs by what the two crossbars flip in it. -/
theorem completion_answer (h : x.SameButFaults y) (ha : y.answered c = true) (k : Nat) :
    (x.answer c).completion k c =
      ((y.answer c).completion k c).corrupt (x.corruption ^^^ y.corruption) := by
  have hr := ((answered_iff y c).mp ha).1
  have haddress := (h.controllers c).address hr
  have hwrite := (h.controllers c).writeEnable hr
  cases hw : (y.controllers.get c).writeEnable with
  | true =>
    obtain ⟨he, hd⟩ := (h.controllers c).written hr hw
    have hy : ((y.answer c).completion k c).access =
        .write (y.controllers.get c).enables (y.controllers.get c).data := by
      simp only [Handshake.completion, answer, hw, ↓reduceIte]
    rw [Completion.corrupt_write _ hy]
    simp only [Handshake.completion, answer, haddress, hwrite, hw, ↓reduceIte, he, hd]
  | false =>
    have hdata : x.readWord c = y.readWord c ^^^ (x.corruption ^^^ y.corruption) := by
      rw [readWord, readWord, (h.sameCourse.answered c).trans ha, ha, if_pos rfl, if_pos rfl,
        h.memories, Inputs.target, Inputs.target, haddress, BitVec.xor_comm x.corruption,
        BitVec.xor_assoc,
        ← BitVec.xor_assoc y.corruption, BitVec.xor_self, BitVec.zero_xor]
    have hy : ((y.answer c).completion k c).access = .read (y.readWord c) := by
      simp only [Handshake.completion, answer, hw, Bool.false_eq_true, ↓reduceIte]
    rw [Completion.corrupt_read _ hy]
    simp only [Handshake.completion, answer, haddress, hwrite, hw, Bool.false_eq_true,
      ↓reduceIte, hdata]

end SameButFaults

end Crossbar

/-! ### Runs -/

namespace Run

variable {r r' : Run Crossbar} {t t' : Nat}

theorem time_toResponse_stimulate (r : Run Crossbar) :
    r.stimulate.bench.toResponse.time = r.bench.origin + 8 :=
  Crossbar.clockKept.time_toResponse_stimulate r

theorem time_iterate (r : Run Crossbar) (k : Nat) :
    (r.iterate k).bench.time = r.bench.origin + 8 := Crossbar.clockKept.time_iterate r k

theorem Landed.timeOut (h : r.Landed) (limit iteration : Nat) :
    (r.timeOut limit iteration).Landed := ⟨h.resetLevel, h.seen, h.fits⟩

/-- Which ports show ready unasked depends on the requests and the injected fault alone. -/
theorem readyUnasked_congr {k : Nat}
    (h : (r.iterate k).bench.device.SameCourse (r'.iterate k).bench.device)
    (hs : r.bench.device.spurious = r'.bench.device.spurious) :
    Device.readyUnasked r.stimulate.bench.toResponse.device =
      Device.readyUnasked r'.stimulate.bench.toResponse.device := by
  funext c
  rw [← device_iterate r k, ← device_iterate r' k,
    Crossbar.readyUnasked_eq (settled_iterate r k),
    Crossbar.readyUnasked_eq (settled_iterate r' k), spurious_iterate, spurious_iterate, hs,
    (h.controllers c).request]

/-- Two runs that have done the same, one as long after `t` as the other is after `t'`. -/
structure Parallel (t t' : Nat) (r r' : Run Crossbar) : Prop where
  landed : r.Landed
  landed' : r'.Landed
  device : r.bench.device.SameButFaults r'.bench.device
  clock : r.bench.device.clock = r'.bench.device.clock
  time : r.bench.time + t' = r'.bench.time + t
  requesters : r.requesters = r'.requesters
  shadow : r.shadow = r'.shadow
  completions : r.completions.toList = r'.completions.toList.map
    (Completion.corrupt (r.bench.device.corruption ^^^ r'.bench.device.corruption))

namespace Parallel

theorem launch {b b' : Testbench Crossbar} (hb : ∀ c, (b.device.controllers.get c).Fits c)
    (hb' : ∀ c, (b'.device.controllers.get c).Fits c) (s : Scenario) :
    Parallel b.origin b'.origin (b.launch .standard s) (b'.launch .standard s) := by
  obtain ⟨hf, -, -, -⟩ := Testbench.fresh_prepare b s.delays
  obtain ⟨hf', -, -, -⟩ := Testbench.fresh_prepare b' s.delays
  have hbench := Testbench.bench_launch b .standard s
  have hbench' := Testbench.bench_launch b' .standard s
  constructor
  case landed => exact (InStep.launch hb .standard s).landed
  case landed' => exact (InStep.launch hb' .standard s).landed
  case device =>
    rw [hbench, hbench']
    exact ⟨fun c => .of_idle (hf.idle c) (hf'.idle c),
      Table.ext_get fun p => (hf.memories p).trans (hf'.memories p).symm⟩
  case clock =>
    rw [hbench, hbench']
    exact hf.clock.trans hf'.clock.symm
  case time =>
    rw [hbench, hbench', (Crossbar.clockKept.lands_prepare _ _).2,
      (Crossbar.clockKept.lands_prepare _ _).2]
    omega
  case requesters => rw [Testbench.requesters_launch, Testbench.requesters_launch]
  case shadow => rw [Testbench.shadow_launch, Testbench.shadow_launch]
  case completions =>
    rw [Testbench.completions_launch, Testbench.completions_launch, List.map_nil]

theorem origin (h : Parallel t t' r r') : r.bench.origin + t' = r'.bench.origin + t := by
  have ht := h.time
  rw [Testbench.origin, Testbench.origin, Crossbar.device_clock, Crossbar.device_clock, h.clock]
  omega

theorem device_iterate (h : Parallel t t' r r') (k : Nat) :
    (r.iterate k).bench.device.SameButFaults (r'.iterate k).bench.device where
  controllers c := by
    rw [controllers_iterate, controllers_iterate, h.requesters]
    exact (h.device.controllers c).load (h.landed.fits c) (h.landed'.fits c) _
  memories := by
    rw [h.landed.memories_iterate, h.landed'.memories_iterate]
    exact h.device.sameCourse.memories_edge (h.landed.resetLevel.trans h.landed'.resetLevel.symm)

theorem entries_iterate (h : Parallel t t' r r') (k : Nat) :
    Device.entries r.stimulate.bench.toResponse.device k =
      (Device.entries r'.stimulate.bench.toResponse.device k).map
        (Completion.corrupt (r.bench.device.corruption ^^^ r'.bench.device.corruption)) := by
  have hd := h.device_iterate k
  rw [h.landed.entries_iterate, h.landed'.entries_iterate, List.map_map,
    funext hd.sameCourse.answered, ← corruption_iterate r k, ← corruption_iterate r' k]
  refine List.map_congr_left fun c hc => ?_
  exact hd.completion_answer (List.mem_filter.mp hc).2 k

/-- An iteration keeps two runs parallel. -/
theorem iterate (h : Parallel t t' r r') (k : Nat) :
    Parallel t t' (r.iterate k) (r'.iterate k) where
  landed := h.landed.iterate k
  landed' := h.landed'.iterate k
  device := h.device_iterate k
  clock := by
    rw [Run.device_iterate, Run.device_iterate, Testbench.clock_toResponse,
      Testbench.clock_toResponse]
  time := by
    have ho := h.origin
    rw [time_iterate, time_iterate]
    omega
  requesters := Table.ext_get fun c => by
    rw [h.landed.requesters_iterate, h.landed'.requesters_iterate, h.requesters,
      (h.device_iterate k).sameCourse.answered]
  shadow := by
    rw [shadow_iterate, shadow_iterate, h.entries_iterate, List.foldl_map, h.shadow]
    simp only [Completion.absorb_corrupt]
  completions := by
    rw [completions_iterate, completions_iterate, h.entries_iterate, h.completions,
      List.map_append, corruption_iterate, corruption_iterate]

theorem unroll {b b' : Testbench Crossbar} (hb : ∀ c, (b.device.controllers.get c).Fits c)
    (hb' : ∀ c, (b'.device.controllers.get c).Fits c) (s : Scenario) (n : Nat) :
    Parallel b.origin b'.origin (b.unroll .standard s n) (b'.unroll .standard s n) := by
  induction n with
  | zero => exact .launch hb hb' s
  | succ n ih => exact ih.iterate (n + 1)

theorem timeOut (h : Parallel t t' r r') (limit iteration : Nat) :
    Parallel t t' (r.timeOut limit iteration) (r'.timeOut limit iteration) where
  landed := h.landed.timeOut limit iteration
  landed' := h.landed'.timeOut limit iteration
  device := h.device
  clock := h.clock
  time := h.time
  requesters := h.requesters
  shadow := h.shadow
  completions := h.completions

theorem allDrained (h : Parallel t t' r r') : r.allDrained = r'.allDrained := by
  rw [Run.allDrained, Run.allDrained, h.requesters]

end Parallel

end Run

end CrossbarBench
