import Mathlib.Data.List.Pairwise
import CrossbarBench.Proofs.Ledger.Ownership
import CrossbarBench.Proofs.Run.Unroll

/-! The order in which an iteration serves its ports. Entries on different peripherals neither
change a word of each other nor judge each other, so a shadow memory takes them in any order and
objects to the same of them. A device under which an iteration never makes two entries on one
peripheral therefore lets a run serve its ports in any order, another one in each iteration. -/

namespace CrossbarBench

namespace Completion

/-- The completions are on different peripherals. -/
def Apart (map : AddressMap) (c d : Completion) : Prop :=
  map.peripheral c.address ≠ map.peripheral d.address

variable {map : AddressMap} {c d : Completion}

theorem Apart.symm (h : c.Apart map d) : d.Apart map c := Ne.symm h

instance : Std.Symm (Apart map) := ⟨fun _ _ => Apart.symm⟩

/-- An entry on another peripheral leaves a word as it is. -/
theorem amend_of_apart {a : Word} (h : map.peripheral c.address ≠ map.peripheral a)
    (word : Word) : c.amend map a word = word :=
  amend_of_not_writesTo (fun hw => h (Prod.mk.inj hw.2).1) word

theorem amend_comm (h : c.Apart map d) (a word : Word) :
    d.amend map a (c.amend map a word) = c.amend map a (d.amend map a word) := by
  by_cases hc : map.peripheral c.address = map.peripheral a
  · have hd : map.peripheral d.address ≠ map.peripheral a := fun hd => h (hc.trans hd.symm)
    rw [amend_of_apart hd, amend_of_apart hd]
  · rw [amend_of_apart hc, amend_of_apart hc]

end Completion

namespace Shadow

variable {s : Shadow} {ledger ledger' : List Completion}

theorem foldl_absorb_perm (hs : s.map = .standard)
    (ha : ledger.Pairwise (Completion.Apart .standard)) (hp : ledger.Perm ledger') :
    ledger.foldl absorb s = ledger'.foldl absorb s := by
  refine ext_expected ((map_foldl_absorb s ledger).trans hs) ((map_foldl_absorb s ledger').trans hs)
    fun a => ?_
  rw [expected_foldl_absorb, expected_foldl_absorb, hs]
  refine hp.foldl_eq' (fun c hc d hd word => ?_) _
  by_cases he : c = d
  · rw [he]
  · exact Completion.amend_comm (ha.forall hc hd he) a word

/-- An entry on another peripheral does not change how one is judged. -/
theorem objection?_absorb {c d : Completion} (h : c.Apart s.map d) :
    (s.absorb c).objection? d = s.objection? d := by
  have he : (s.absorb c).expected d.address = s.expected d.address := by
    rw [expected_absorb, Completion.amend_of_apart h]
  rw [objection?, objection?, he]

theorem objections_of_apart (ha : ledger.Pairwise (Completion.Apart s.map)) :
    s.objections ledger = ledger.filterMap fun c => (s.objection? c).map fun kind => (c, kind) := by
  induction ledger generalizing s with
  | nil => rfl
  | cons c ledger ih =>
    obtain ⟨hc, ha⟩ := List.pairwise_cons.mp ha
    have hrest : (s.absorb c).objections ledger =
        ledger.filterMap fun d => (s.objection? d).map fun kind => (d, kind) := by
      rw [ih (by rwa [map_absorb])]
      exact List.filterMap_congr fun d hd => by rw [objection?_absorb (hc d hd)]
    rw [objections, hrest, List.filterMap_cons]
    cases s.objection? c <;> rfl

theorem objections_perm (ha : ledger.Pairwise (Completion.Apart s.map)) (hp : ledger.Perm ledger') :
    (s.objections ledger).Perm (s.objections ledger') := by
  have ha' : ledger'.Pairwise (Completion.Apart s.map) :=
    (hp.pairwise_iff fun h => Completion.Apart.symm h).mp ha
  rw [objections_of_apart ha, objections_of_apart ha']
  exact hp.filterMap _

end Shadow

/-- Two reports that differ in the order of what they list. -/
structure Report.Reordered (r r' : Report) : Prop where
  outcome : r.outcome = r'.outcome
  iterations : r.iterations = r'.iterations
  shadow : r.shadow = r'.shadow
  completions : r.completions.Perm r'.completions
  failures : r.failures.Perm r'.failures

namespace Run

variable {σ : Type}

/-- Two runs that differ in their logs and in the order of what they have found. -/
structure Reordered (r r' : Run σ) : Prop where
  device : r.bench.device = r'.bench.device
  time : r.bench.time = r'.bench.time
  requesters : r.requesters = r'.requesters
  shadow : r.shadow = r'.shadow
  completions : r.completions.toList.Perm r'.completions.toList
  failures : r.failures.toList.Perm r'.failures.toList

/-- The shadow memory of a run decodes the bus of the crossbar, and no two entries that the
next iteration makes are on one peripheral. -/
structure Parted [Device σ] (k : Nat) (r : Run σ) : Prop where
  map : r.shadow.map = .standard
  apart : (Device.entries r.stimulate.bench.toResponse.device k).Pairwise
    (Completion.Apart .standard)

namespace Reordered

variable {r r' : Run σ}

theorem refl (r : Run σ) : r.Reordered r := ⟨rfl, rfl, rfl, rfl, .refl _, .refl _⟩

theorem report (h : r.Reordered r') (name : String) (outcome : Outcome) (n : Nat) :
    (r.report name outcome n).Reordered (r'.report name outcome n) :=
  ⟨rfl, rfl, h.shadow, h.completions, h.failures⟩

theorem timeOut (h : r.Reordered r') (limit k : Nat) :
    (r.timeOut limit k).Reordered (r'.timeOut limit k) where
  device := h.device
  time := h.time
  requesters := h.requesters
  shadow := h.shadow
  completions := h.completions
  failures := by
    simp only [Run.timeOut, fail, Array.toList_push, h.time]
    exact h.failures.append_right _

variable [Device σ]

theorem stimulate (h : r.Reordered r') : r.stimulate.Reordered r'.stimulate := by
  obtain ⟨hd, ht⟩ := Testbench.toStimulus_congr h.device h.time
  constructor
  · rw [device_stimulate, device_stimulate, hd, h.requesters]
  · rw [time_stimulate, time_stimulate, ht]
  · exact Table.ext_get fun c => by rw [requesters_stimulate, requesters_stimulate, h.requesters]
  · rw [stimulate_frame r, stimulate_frame r']
    exact h.shadow
  · rw [stimulate_frame r, stimulate_frame r']
    exact h.completions
  · rw [stimulate_frame r, stimulate_frame r']
    exact h.failures

/-- Serving the ports in another order finds the same, as long as the entries keep apart. -/
theorem respondIn {k : Nat} (h : r.Reordered r') (hs : r.shadow.map = .standard)
    (ha : (Device.entries r.bench.toResponse.device k).Pairwise (Completion.Apart .standard))
    {ports : List Port} (hp : ports.Perm Port.all) :
    (r.respond k).Reordered (r'.respondIn ports k) := by
  obtain ⟨hd, ht⟩ := Testbench.toResponse_congr h.device h.time
  have he : (Device.entries r.bench.toResponse.device k).Perm
      (ports.filterMap (Device.completed? r'.bench.toResponse.device k)) := by
    rw [← hd]
    exact (hp.filterMap _).symm
  have hshadow : (r.respond k).shadow = (r'.respondIn ports k).shadow := by
    rw [shadow_respond, shadow_respondIn, ← h.shadow, Shadow.foldl_absorb_perm hs ha he]
  constructor
  · rw [bench_respond, bench_respondIn]
    exact hd
  · rw [bench_respond, bench_respondIn]
    exact ht
  · exact Table.ext_get fun c => by
      rw [requesters_respond, requesters_respondIn _ _ _ (hp.mem_iff.mpr (Port.mem_all c)), hd,
        h.requesters]
  · exact hshadow
  · rw [completions_respond, completions_respondIn]
    exact h.completions.append he
  · have hv : (violations r.bench.toResponse.device r.bench.toResponse.time k Port.all).Perm
        (violations r'.bench.toResponse.device r'.bench.toResponse.time k ports) := by
      rw [hd, ht]
      exact ((hp.filter _).map _).symm
    have ho : (r.shadow.objections (Device.entries r.bench.toResponse.device k)).Perm
        (r'.shadow.objections
          (ports.filterMap (Device.completed? r'.bench.toResponse.device k))) := by
      rw [← h.shadow]
      exact Shadow.objections_perm (hs ▸ ha) he
    rw [failures_respond, failures_respondIn]
    exact (h.failures.append hv).append (ht ▸ ho.map _)

end Reordered

/-! ### Whole runs -/

section Loop
variable [Device σ]

/-- An iteration that serves the ports in the given order. -/
def iterateIn (ports : List Port) (k : Nat) (r : Run σ) : Run σ := r.stimulate.respondIn ports k

/-- The loop of a run with an order of service for each iteration. -/
def loopIn (order : Nat → List Port) (limit : Nat) :
    (left k : Nat) → Run σ → Outcome × Nat × Run σ
  | 0, k, r => (.aborted, k, r.timeOut limit k)
  | left + 1, k, r =>
    let r := r.iterateIn (order k) k
    if r.allDrained then (.done, k, r) else loopIn order limit left (k + 1) r

theorem loopIn_all (limit left k : Nat) (r : Run σ) :
    loopIn (fun _ => Port.all) limit left k r = loop limit left k r := by
  induction left generalizing k r with
  | zero => rfl
  | succ left ih =>
    rw [loopIn, loop]
    simp only [ih]
    rfl

theorem Reordered.iterateIn {r r' : Run σ} {k : Nat} (h : r.Reordered r') (hr : r.Parted k)
    {ports : List Port} (hp : ports.Perm Port.all) :
    (r.iterate k).Reordered (r'.iterateIn ports k) := by
  refine h.stimulate.respondIn ?_ hr.apart hp
  rw [stimulate_frame]
  exact hr.map

/-- Where what every iteration keeps lets no two of its entries fall on one peripheral, the order
of service does not matter. -/
theorem loop_reordered {P : Nat → Run σ → Prop} (limit : Nat) {order : Nat → List Port}
    (ho : ∀ k, (order k).Perm Port.all) (parted : ∀ k r, P k r → r.Parted k)
    (step : ∀ k r, P k r → P (k + 1) (r.iterate k)) :
    ∀ (left k : Nat) (r r' : Run σ), P k r → r.Reordered r' →
      ∃ outcome n e e', loop limit left k r = (outcome, n, e) ∧
        loopIn order limit left k r' = (outcome, n, e') ∧ e.Reordered e'
  | 0, k, r, r', _, h => ⟨.aborted, k, _, _, rfl, rfl, h.timeOut limit k⟩
  | left + 1, k, r, r', hP, h => by
    have hi := h.iterateIn (parted k r hP) (ho k)
    have hd : (r'.iterateIn (order k) k).allDrained = (r.iterate k).allDrained := by
      rw [allDrained, allDrained, hi.requesters]
    cases hdrained : (r.iterate k).allDrained with
    | true => exact ⟨.done, k, _, _, by simp [loop, hdrained], by simp [loopIn, hd, hdrained], hi⟩
    | false =>
      obtain ⟨outcome, n, e, e', hl, hl', he⟩ :=
        loop_reordered limit ho parted step left (k + 1) _ _ (step k r hP) hi
      exact ⟨outcome, n, e, e', by simp [loop, hdrained, hl], by simp [loopIn, hd, hdrained, hl'],
        he⟩

end Loop

end Run

namespace Testbench

variable {σ : Type} [Device σ]

/-- A run of a scenario with an order of service for each iteration. -/
def performIn (order : Nat → List Port) (b : Testbench σ) (s : Scenario) :
    Except Fault (Report × Testbench σ) :=
  (AddressMap.ofWidth (Device.addressWidth b.device)).map fun map =>
    let l := Run.loopIn order s.limit (s.limit - 1) 1 (b.launch map s)
    (l.2.2.report s.name l.1 l.2.1, l.2.2.bench)

/-- A run serves its ports in their own order in every iteration. -/
theorem performIn_all (b : Testbench σ) (s : Scenario) :
    b.performIn (fun _ => Port.all) s = b.perform s := by
  rw [perform_eq, performIn]
  simp only [Run.loopIn_all]

/-- Where no iteration of a run makes two entries on one peripheral, the order of service in its
iterations shows only in the order of what the report lists. -/
theorem performIn_reordered {P : Nat → Run σ → Prop} {b : Testbench σ} {s : Scenario}
    {map : AddressMap} {order : Nat → List Port}
    (width : Device.addressWidth b.device = map.width) (ho : ∀ k, (order k).Perm Port.all)
    (parted : ∀ k r, P k r → r.Parted k) (start : P 1 (b.launch map s))
    (step : ∀ k r, P k r → P (k + 1) (r.iterate k)) :
    ∃ report bench report' bench', b.perform s = .ok (report, bench) ∧
      b.performIn order s = .ok (report', bench') ∧ report.Reordered report' := by
  obtain ⟨outcome, n, e, e', hl, hl', he⟩ :=
    Run.loop_reordered s.limit ho parted step (s.limit - 1) 1 _ _ start (.refl _)
  refine ⟨_, e.bench, _, e'.bench, ?_, ?_, he.report s.name outcome n⟩
  · rw [perform_eq, width, AddressMap.ofWidth_width, Except.map]
    simp only [hl]
  · rw [performIn, width, AddressMap.ofWidth_width, Except.map]
    simp only [hl']

end Testbench

end CrossbarBench
