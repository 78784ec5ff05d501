import CrossbarBench.Proofs.Crossbar.Comparison
import CrossbarBench.Proofs.Ledger.Agreement

/-! Injected faults are observed exactly and disturb nothing else. A run on a faulty crossbar
keeps pace with the run that a healthy one would have made: neither fault reaches a decision,
a write or the end of the run. What differs are the reads, each with its mismatch, and a
violation for every iteration that finds nothing requested on the port of the spurious ready. -/

namespace CrossbarBench

/-- The crossbar with these faults injected in place of its own. -/
def Crossbar.withFaults (x : Crossbar) (mask : Word) (port : Option Port) : Crossbar :=
  { x with corruption := mask, spurious := port }

namespace Completion

/-- What is found wrong with a read once the bits of a mask are flipped in it. -/
def mismatch? (mask : Word) (c : Completion) : Option (Nat × Option Port × FailureKind) :=
  match c.access with
  | .read data => some (c.iteration, some c.port, .dataMismatch c.address data (data ^^^ mask))
  | .write .. => none

end Completion

/-- The report of a run on a crossbar with faults, beside that of the run on a healthy one: a
mismatch for every read that is corrupted, a violation for every iteration in which the port of
the spurious ready was idle, and for the rest the same. -/
structure Report.Exposes (mask : Word) (port : Option Port) (idle : Port → List Nat)
    (healthy r : Report) : Prop where
  name : r.name = healthy.name
  outcome : r.outcome = healthy.outcome
  iterations : r.iterations = healthy.iterations
  shadow : r.shadow = healthy.shadow
  completions : r.completions = healthy.completions.map (Completion.corrupt mask)
  mismatches : r.dataMismatches.map Failure.finding =
    if mask = 0 then [] else healthy.completions.filterMap (Completion.mismatch? mask)
  violations : r.protocolViolations.map Failure.finding =
    port.toList.flatMap fun p => (idle p).map fun k => (k, some p, .protocolViolation)
  timeouts : r.failures.filter Failure.isTimeout = healthy.failures

/-- A timeout tells of neither fault. -/
theorem Report.Exposes.interrupt {mask : Word} {port : Option Port} {idle : Port → List Nat}
    {healthy r : Report} (h : Exposes mask port idle healthy r) {f : Failure}
    (hf : f.isTimeout = true) :
    Exposes mask port idle { healthy with failures := healthy.failures ++ [f] }
      { r with failures := r.failures ++ [f] } := by
  obtain ⟨hv, hd⟩ := Failure.kinds_of_isTimeout hf
  have hdata : Report.dataMismatches { r with failures := r.failures ++ [f] } =
      r.dataMismatches := by
    simp [Report.dataMismatches, hd]
  have hviol : Report.protocolViolations { r with failures := r.failures ++ [f] } =
      r.protocolViolations := by
    simp [Report.protocolViolations, hv]
  exact
    { h with
      mismatches := by rw [hdata, h.mismatches]
      violations := by rw [hviol, h.violations]
      timeouts := by simp [h.timeouts, hf] }

namespace Shadow

variable {s : Shadow} {mask : Word}

/-- A read that was right is wrong with any of its bits flipped. -/
theorem objection?_corrupt (hm : mask ≠ 0) {c : Completion} (h : s.objection? c = none) :
    ((s.objection? (c.corrupt mask)).map fun kind =>
      ((c.corrupt mask).iteration, some (c.corrupt mask).port, kind)) = c.mismatch? mask := by
  cases ha : c.access with
  | write enables data =>
    rw [Completion.corrupt_write mask ha, h, Completion.mismatch?, ha]
    rfl
  | read data =>
    have he : data = s.expected c.address := by
      rw [objection?, ha] at h
      dsimp only at h
      split at h
      · assumption
      · cases h
    have hne : data ^^^ mask ≠ s.expected c.address := fun hx =>
      hm ((BitVec.xor_right_inj data).mp ((hx.trans he.symm).trans BitVec.xor_zero.symm))
    rw [Completion.corrupt_read mask ha, objection?, Completion.mismatch?, ha]
    dsimp only
    rw [if_neg hne, ← he]
    rfl

/-- A ledger without objections is objected to for exactly its reads once they are corrupted. -/
theorem mismatches_corrupt (hm : mask ≠ 0) {map : AddressMap} {ledger : List Completion}
    (h : mismatches map ledger = []) :
    mismatches map (ledger.map (Completion.corrupt mask)) =
      ledger.filterMap (Completion.mismatch? mask) := by
  rw [mismatches_eq_objections] at h ⊢
  replace h := List.map_eq_nil_iff.mp h
  generalize fresh map = s at h ⊢
  induction ledger generalizing s with
  | nil => rfl
  | cons c ledger ih =>
    rw [objections, List.append_eq_nil_iff] at h
    have hc : s.objection? c = none := by
      cases ho : s.objection? c with
      | none => rfl
      | some kind =>
        rw [ho] at h
        cases h.1
    rw [List.map_cons, objections, List.map_append, Completion.absorb_corrupt, ih _ h.2,
      List.filterMap_cons, ← objection?_corrupt hm hc]
    cases s.objection? (c.corrupt mask) <;> rfl

end Shadow

namespace Run

variable {r : Run Crossbar} {k : Nat}

/-- A response phase finds a violation on the port of the spurious ready, unless the bench
awaits an answer there. -/
theorem InStep.violations_iterate (h : r.InStep) (k time : Nat) :
    violations r.stimulate.bench.toResponse.device time k Port.all =
      (r.bench.device.spurious.toList.filter fun c =>
        !(r.stimulate.requesters.get c).awaiting).map (Failure.violation time k) := by
  have hc : ∀ c, Device.readyUnasked r.stimulate.bench.toResponse.device c =
      (r.bench.device.spurious == some c && !(r.stimulate.requesters.get c).awaiting) := by
    intro c
    rw [← device_iterate r k, Crossbar.readyUnasked_eq (settled_iterate r k), spurious_iterate,
      h.request_iterate, requesters_stimulate]
  rw [violations, funext hc]
  congr 1
  cases r.bench.device.spurious with
  | none => rfl
  | some p => rcases Port.eq_one_or_two_or_three p with rfl | rfl | rfl <;> rfl

end Run

namespace Testbench

variable {b : Testbench Crossbar}

theorem faults_unroll (b : Testbench Crossbar) (s : Scenario) (n : Nat) :
    (b.unroll .standard s n).bench.device.corruption = b.device.corruption ∧
      (b.unroll .standard s n).bench.device.spurious = b.device.spurious := by
  induction n with
  | zero =>
    obtain ⟨-, -, hc, hs⟩ := fresh_prepare b s.delays
    rw [unroll, bench_launch]
    exact ⟨hc, hs⟩
  | succ n ih =>
    rw [unroll, Run.corruption_iterate, Run.spurious_iterate]
    exact ih

theorem inStep_unroll (hb : ∀ c, (b.device.controllers.get c).Fits c) (s : Scenario) (n : Nat) :
    (b.unroll .standard s n).InStep :=
  unroll_induction (P := fun _ r => r.InStep) (.launch hb .standard s)
    (fun n _ h => h.iterate (n + 1)) n

/-- Among the first `n` iterations of a run those whose response phase finds no request on a port
that was issued and is not acknowledged. -/
def idleIterations (b : Testbench Crossbar) (s : Scenario) (port : Port) (n : Nat) : List Nat :=
  ((List.range n).filter fun m =>
    !((b.unroll .standard s m).stimulate.requesters.get port).awaiting).map (· + 1)

theorem idleIterations_succ (b : Testbench Crossbar) (s : Scenario) (port : Port) (n : Nat) :
    b.idleIterations s port (n + 1) = b.idleIterations s port n ++
      if ((b.unroll .standard s n).stimulate.requesters.get port).awaiting then []
      else [n + 1] := by
  rw [idleIterations, List.range_succ, List.filter_append, List.map_append]
  congr 1
  cases h : ((b.unroll .standard s n).stimulate.requesters.get port).awaiting <;> simp [h]

/-- The violations that a run has found after `n` iterations. -/
theorem violations_unroll (hb : ∀ c, (b.device.controllers.get c).Fits c) (s : Scenario)
    (n : Nat) :
    ((b.unroll .standard s n).failures.toList.filter Failure.isProtocolViolation).map
        Failure.finding =
      b.device.spurious.toList.flatMap fun p =>
        (b.idleIterations s p n).map fun k => (k, some p, .protocolViolation) := by
  induction n with
  | zero => cases b.device.spurious <;> rfl
  | succ n ih =>
    rw [unroll, Run.failures_iterate, List.filter_append, Run.violations_found, List.map_append, ih,
      (inStep_unroll hb s n).violations_iterate, (faults_unroll b s n).2]
    cases b.device.spurious with
    | none => rfl
    | some p =>
      simp only [Option.toList_some, List.flatMap_singleton, idleIterations_succ, List.map_append]
      congr 1
      cases h : ((b.unroll .standard s n).stimulate.requesters.get p).awaiting <;>
        simp [h, Failure.violation, Failure.finding]

theorem unaccused_unroll (hb : ∀ c, (b.device.controllers.get c).Fits c)
    (hc : b.device.corruption = 0) (hs : b.device.spurious = none) (s : Scenario) (n : Nat) :
    (b.unroll .standard s n).Unaccused (n + 1) :=
  unroll_induction (P := fun n r => r.Unaccused (n + 1)) (.launch_of_fits hb hc hs s)
    (fun _ _ h => h.iterate) n

/-- A crossbar that flips bits answers like one that does not, but for those bits. -/
theorem corrupt_unroll {b' : Testbench Crossbar} (hb : ∀ c, (b.device.controllers.get c).Fits c)
    (hb' : ∀ c, (b'.device.controllers.get c).Fits c) (hc : b.device.corruption = 0)
    (s : Scenario) (n : Nat) :
    (b'.unroll .standard s n).completions.toList =
      (b.unroll .standard s n).completions.toList.map
        (Completion.corrupt b'.device.corruption) := by
  have hx : b'.device.corruption ^^^ b.device.corruption = b'.device.corruption := by
    rw [hc]
    exact BitVec.xor_zero
  rw [(Run.Parallel.unroll hb' hb s n).completions, (faults_unroll b' s n).1,
    (faults_unroll b s n).1, hx]

/-- What a faulty crossbar reports after as many iterations exposes its faults beside what a
healthy one does. -/
theorem exposes_unroll {b' : Testbench Crossbar} (hb : ∀ c, (b.device.controllers.get c).Fits c)
    (hb' : ∀ c, (b'.device.controllers.get c).Fits c) (hc : b.device.corruption = 0)
    (hs : b.device.spurious = none) (s : Scenario) (outcome : Outcome) (iterations n : Nat) :
    ((b.unroll .standard s n).report s.name outcome iterations).Exposes b'.device.corruption
      b'.device.spurious (fun p => b'.idleIterations s p n)
      ((b'.unroll .standard s n).report s.name outcome iterations) := by
  have hparallel := Run.Parallel.unroll hb' hb s n
  have hhealthy := unaccused_unroll hb hc hs s n
  have hledger := corrupt_unroll hb hb' hc s n
  have hclean := hhealthy.mismatches_eq_nil
  have hjudged := (audited_unroll b' .standard s n).judged
  constructor
  -- the common value is given, lest the two runs be unfolded to compare it
  case name => exact Eq.refl s.name
  case outcome => exact Eq.refl outcome
  case iterations => exact Eq.refl iterations
  case shadow => exact hparallel.shadow
  case completions => exact hledger
  case mismatches =>
    refine hjudged.trans ?_
    rw [hledger]
    by_cases hm : b'.device.corruption = 0
    · rw [if_pos hm, hm, Completion.map_corrupt_zero, hclean]
    · rw [if_neg hm]
      exact Shadow.mismatches_corrupt hm hclean
  case violations => exact violations_unroll hb' s n
  case timeouts => exact (timeouts_unroll b' .standard s n).trans hhealthy.failures.symm

/-- The runs of one scenario on a healthy crossbar and, at the same time, on a faulty one. -/
theorem perform_exposes (b b' : Testbench Crossbar)
    (hb : ∀ c, (b.device.controllers.get c).Fits c)
    (hb' : ∀ c, (b'.device.controllers.get c).Fits c) (hc : b.device.corruption = 0)
    (hs : b.device.spurious = none) (ho : b'.origin = b.origin) (s : Scenario) :
    ∃ healthy healthyBench faulty faultyBench, b.perform s = .ok (healthy, healthyBench) ∧
      b'.perform s = .ok (faulty, faultyBench) ∧
      healthy.Exposes b'.device.corruption b'.device.spurious
        (fun p => b'.idleIterations s p faulty.executed) faulty ∧
      ∀ p o, faultyBench.device.word p o = healthyBench.device.word p o := by
  have hparallel := Run.Parallel.unroll hb' hb s
  have hexposes := exposes_unroll hb hb' hc hs s
  rcases perform_lockstep b.addressWidth_crossbar b'.addressWidth_crossbar (s := s) rfl
    fun n => (hparallel n).allDrained.symm with ⟨n, hp, hp'⟩ | ⟨hp, hp'⟩
  · exact ⟨_, _, _, _, hp, hp', hexposes .done n n,
      Crossbar.word_congr (hparallel n).device.memories⟩
  · have htimeout : b'.timeout .standard s = b.timeout .standard s := by
      have ht := (hparallel (s.limit - 1)).time
      rw [ho] at ht
      rw [timeout, timeout, Nat.add_right_cancel ht]
    refine ⟨(b.cutOff .standard s).1, _, (b'.cutOff .standard s).1, _, hp, hp', ?_,
      Crossbar.word_congr (hparallel (s.limit - 1)).device.memories⟩
    rw [executed_cutOff, report_cutOff, report_cutOff, htimeout]
    exact (hexposes .aborted _ _).interrupt rfl

/-- Beside a healthy run from the same state a run with faults injected ends as it does, with the
same shadow memory and words and the same completions but for what the mask flips in their reads.
Every read is then a mismatch, and every iteration that was carried out with the port of the
spurious ready idle a violation. -/
theorem perform_observes_faults (hb : b.Reached) (s : Scenario) (mask : Word)
    (port : Option Port) :
    ∃ healthy healthyBench faulty faultyBench,
      (b.onDevice (·.withFaults 0 none)).perform s = .ok (healthy, healthyBench) ∧
      (b.onDevice (·.withFaults mask port)).perform s = .ok (faulty, faultyBench) ∧
      healthy.Exposes mask port
        (fun p => (b.onDevice (·.withFaults mask port)).idleIterations s p faulty.executed)
        faulty ∧
      ∀ p o, faultyBench.device.word p o = healthyBench.device.word p o :=
  perform_exposes (b.onDevice (·.withFaults 0 none)) (b.onDevice (·.withFaults mask port))
    hb.device.fits hb.device.fits rfl rfl rfl s

/-- Both faults at once, on a bench that has been left with its clock high. -/
theorem perform_observes_faults_of_both :
    let b := (new Crossbar.initial).after [.toStimulus]
    let s := { (Scenario.blank "both").withLimit 20 with
      sequences := #v[[some (.read 0x8001)], [none, some (.write 0x8001 0xF 7)], []] }
    b.Reached ∧
    ∃ healthy healthyBench faulty faultyBench,
      (b.onDevice (·.withFaults 0 none)).perform s = .ok (healthy, healthyBench) ∧
      (b.onDevice (·.withFaults 0xFF (some .two))).perform s = .ok (faulty, faultyBench) ∧
      healthy.Exposes 0xFF (some .two)
        (fun p => (b.onDevice (·.withFaults 0xFF (some .two))).idleIterations s p faulty.executed)
        faulty ∧
      ∀ p o, faultyBench.device.word p o = healthyBench.device.word p o :=
  have hb := ⟨Crossbar.initial, _, ⟨[], rfl⟩, rfl⟩
  ⟨hb, perform_observes_faults hb _ _ _⟩

end Testbench

end CrossbarBench
