import CrossbarBench.Proofs.Crossbar.History
import CrossbarBench.Proofs.Crossbar.Protocol
import CrossbarBench.Proofs.Ledger.Audit
import CrossbarBench.Proofs.Ledger.Mirror

/-! Hardware and reference agree. Between two iterations the shadow memory is ahead of the
crossbar by exactly the answers of the last response phase, which the next edge transfers.
So a healthy crossbar never raises an alarm, and at the end of a run the memories hold the
shadow memory, or what it was one iteration before the limit. -/

namespace CrossbarBench

theorem Crossbar.word_eq {x : Crossbar} {s : Shadow}
    (h : ∀ p, (x.memories.get p).words = s.words.get p) (p o : Nat) : x.word p o = s.word p o := by
  unfold Crossbar.word Shadow.word
  split
  · rw [h]
  · rfl

namespace Run

variable {r : Run Crossbar} {k : Nat}

/-- Before iteration `k` the shadow memory is one edge ahead of the crossbar, whose memories
hold the writes of all iterations but the last one. -/
structure Agreeing (k : Nat) (r : Run Crossbar) : Prop where
  inStep : r.InStep
  audited : r.Audited .standard k
  ahead : ∀ p, r.shadow.words.get p = r.bench.device.committed p
  behind : ∀ p, (r.bench.device.memories.get p).words =
    (Shadow.replay .standard
      (r.completions.toList.filter fun c => c.iteration + 1 < k)).words.get p

namespace Agreeing

theorem map_shadow (h : r.Agreeing k) : r.shadow.map = .standard := by
  rw [h.audited.replayed, Shadow.map_replay]

/-- The edge of an iteration brings the memories to the shadow memory. -/
theorem words_iterate (h : r.Agreeing k) (p : Peripheral) :
    ((r.iterate k).bench.device.memories.get p).words = r.shadow.words.get p := by
  rw [h.inStep.landed.memories_iterate, Crossbar.words_edge h.inStep.landed.resetLevel, h.ahead]

theorem mirrored (h : r.Agreeing k) : (r.iterate k).bench.device.Mirrored [] r.shadow :=
  ⟨h.map_shadow, nofun, fun p _ => (h.words_iterate p).symm⟩

theorem shadow_iterate (h : r.Agreeing k) :
    (r.iterate k).shadow =
      ((Port.all.filter (r.iterate k).bench.device.answered).map fun c =>
        ((r.iterate k).bench.device.answer c).completion k c).foldl Shadow.absorb r.shadow := by
  rw [Run.iterate, shadow_respond, ← Run.iterate, h.inStep.landed.entries_iterate,
    stimulate_frame]

theorem completions_iterate (h : r.Agreeing k) :
    ((r.iterate k).completions.toList.filter fun c => c.iteration + 1 < k + 1) =
      r.completions.toList := by
  have hold : (r.completions.toList.filter fun c => c.iteration + 1 < k + 1) =
      r.completions.toList :=
    List.filter_eq_self.mpr fun c hc => by simpa using h.audited.before c hc
  have hnew : ((Device.entries r.stimulate.bench.toResponse.device k).filter
      fun c => c.iteration + 1 < k + 1) = [] :=
    List.filter_eq_nil_iff.mpr fun c hc => by
      simp [Device.iteration_of_mem_entries hc]
  rw [Run.iterate, completions_respond, List.filter_append, hnew, List.append_nil,
    stimulate_frame]
  exact hold

theorem iterate (h : r.Agreeing k) : (r.iterate k).Agreeing (k + 1) where
  inStep := h.inStep.iterate k
  audited := h.audited.iterate
  ahead p := by
    rw [h.shadow_iterate]
    exact Crossbar.words_foldl_absorb (h.inStep.iterate k).coherent h.map_shadow
      (fun p => (h.words_iterate p).symm) p
  behind p := by
    rw [h.words_iterate, h.completions_iterate, h.audited.replayed]

theorem launch_of_fits {b : Testbench Crossbar}
    (hb : ∀ c, (b.device.controllers.get c).Fits c) (s : Scenario) :
    (b.launch .standard s).Agreeing 1 := by
  have hs := InStep.launch hb .standard s
  obtain ⟨hf, -, -, -⟩ := Testbench.fresh_prepare b s.delays
  have hw : ∀ p, ((b.launch .standard s).bench.device.memories.get p).words =
      Peripheral.resetPattern := fun p => by
    change ((b.prepare s.delays).device.memories.get p).words = _
    rw [hf.memories p]
    rfl
  have hfresh : ∀ p, (Shadow.fresh .standard).words.get p = Peripheral.resetPattern :=
    Table.get_replicate _
  refine ⟨hs, .start _ _, fun p => ?_, fun p => (hw p).trans (hfresh p).symm⟩
  rw [hs.coherent.committed_idle, hw]
  · exact hfresh p
  · intro c ha
    obtain ⟨hr, -, -⟩ := (Crossbar.answered_iff _ c).mp ha
    change ((b.prepare s.delays).device.controllers.get c).request = true at hr
    rw [hf.idle c] at hr
    cases hr

theorem launch {b : Testbench Crossbar} (hb : b.Reached) (s : Scenario) :
    (b.launch .standard s).Agreeing 1 := launch_of_fits hb.device.fits s

/-- When every sequence has drained nothing is left to transfer. -/
theorem words_of_allDrained (h : r.Agreeing k) (hd : r.allDrained = true) (p : Peripheral) :
    (r.bench.device.memories.get p).words = r.shadow.words.get p := by
  rw [h.ahead, h.inStep.coherent.committed_idle]
  intro c ha
  obtain ⟨hr, -, -⟩ := (Crossbar.answered_iff _ c).mp ha
  rw [(h.inStep.drained c (r.allDrained_iff.mp hd c)).1] at hr
  cases hr

/-- What the shadow memory is ahead by are the completions of the last iteration. -/
theorem shadow_eq (h : r.Agreeing k) :
    r.shadow = (r.completions.toList.filter fun c => c.iteration + 1 = k).foldl Shadow.absorb
      (Shadow.replay .standard
        (r.completions.toList.filter fun c => c.iteration + 1 < k)) := by
  rw [← Shadow.replay_append, ← Shadow.split_last h.audited.ordered h.audited.before]
  exact h.audited.replayed

/-- Without injected faults an iteration finds no failure. -/
theorem failures_iterate (h : r.Agreeing k) (hc : r.bench.device.corruption = 0)
    (hs : r.bench.device.spurious = none) :
    (r.iterate k).failures.toList = r.failures.toList := by
  have hv : ∀ c, Device.readyUnasked (r.iterate k).bench.device c = false := fun c => by
    rw [Crossbar.readyUnasked_eq (settled_iterate r k), spurious_iterate, hs]
    rfl
  have hviol : violations (r.iterate k).bench.device r.stimulate.bench.toResponse.time k
      Port.all = [] := by
    rw [violations, List.filter_eq_nil_iff.mpr fun c _ => by simp [hv c]]
    rfl
  have hobj := h.mirrored.objections_answers (k := k) Port.all (by decide)
    ((corruption_iterate r k).trans hc)
  rw [Run.iterate, failures_respond, ← device_iterate r k, hviol]
  rw [device_iterate r k, h.inStep.landed.entries_iterate, stimulate_frame, hobj]
  simp

end Agreeing

/-- No fault is injected, and no failure has been found. -/
structure Unaccused (k : Nat) (r : Run Crossbar) : Prop where
  agreeing : r.Agreeing k
  corruption : r.bench.device.corruption = 0
  spurious : r.bench.device.spurious = none
  failures : r.failures.toList = []

namespace Unaccused

theorem launch_of_fits {b : Testbench Crossbar}
    (hb : ∀ c, (b.device.controllers.get c).Fits c) (hc : b.device.corruption = 0)
    (hs : b.device.spurious = none) (s : Scenario) : (b.launch .standard s).Unaccused 1 := by
  obtain ⟨-, -, hcorr, hspur⟩ := Testbench.fresh_prepare b s.delays
  exact ⟨.launch_of_fits hb s, hcorr.trans hc, hspur.trans hs, rfl⟩

theorem launch {b : Testbench Crossbar} (hb : b.Reached) (hc : b.device.corruption = 0)
    (hs : b.device.spurious = none) (s : Scenario) : (b.launch .standard s).Unaccused 1 :=
  launch_of_fits hb.device.fits hc hs s

theorem iterate (h : r.Unaccused k) : (r.iterate k).Unaccused (k + 1) where
  agreeing := h.agreeing.iterate
  corruption := (corruption_iterate r k).trans h.corruption
  spurious := (spurious_iterate r k).trans h.spurious
  failures := (h.agreeing.failures_iterate h.corruption h.spurious).trans h.failures

theorem mismatches_eq_nil (h : r.Unaccused k) :
    Shadow.mismatches .standard r.completions.toList = [] := by
  rw [← h.agreeing.audited.judged, h.failures]
  rfl

/-- Every read so far carries the word that the writes before it leave. -/
theorem read_eq (h : r.Unaccused k) {n : Nat} {c : Completion} {data : Word}
    (hc : r.completions.toList[n]? = some c) (hr : c.access = .read data) :
    data = (Shadow.replay .standard (r.completions.toList.take n)).expected c.address :=
  Shadow.read_eq_of_mismatches_nil h.mismatches_eq_nil hc hr

end Unaccused

end Run

namespace Testbench

/-- Whatever was done to a crossbar before, while no fault is injected a run finds nothing
but its own timeout, and every read carries the word that the writes before it leave. -/
theorem perform_no_false_alarm {b : Testbench Crossbar} (hb : b.Reached)
    (hc : b.device.corruption = 0) (hs : b.device.spurious = none) (s : Scenario) :
    ∃ report bench, b.perform s = .ok (report, bench) ∧
      report.protocolViolations = [] ∧ report.dataMismatches = [] ∧
      (report.outcome = .done → report.failures = []) ∧
      (report.outcome = .aborted → ∃ f, report.failures = [f] ∧ f.kind = .timeout s.limit) ∧
      ∀ n c data, report.completions[n]? = some c → c.access = .read data →
        data = (Shadow.replay .standard (report.completions.take n)).expected c.address := by
  rcases perform_ends (P := fun k r => r.Unaccused k) (s := s) rfl (.launch hb hc hs s)
    (fun _ _ h _ => h.iterate) with ⟨n, r, -, -, h, -, hp⟩ | ⟨n, r, -, h, hp⟩
  · have hr := h.iterate
    have hf : ((r.iterate n).report s.name .done n).failures = [] := hr.failures
    refine ⟨_, _, hp, ?_, ?_, fun _ => hf, by rintro ⟨⟩, fun _ _ _ => hr.read_eq⟩
    · rw [Report.protocolViolations, hf, List.filter_nil]
    · rw [Report.dataMismatches, hf, List.filter_nil]
  · have hf : ((r.timeOut s.limit n).report s.name .aborted n).failures =
        [⟨.timeout s.limit, r.bench.time, n, none⟩] := by
      simp [Run.report, Run.timeOut, Run.fail, h.failures]
    refine ⟨_, _, hp, ?_, ?_, by rintro ⟨⟩, fun _ => ⟨_, hf, rfl⟩, fun _ _ _ => h.read_eq⟩
    · rw [Report.protocolViolations, hf]
      rfl
    · rw [Report.dataMismatches, hf]
      rfl

/-- A bench that has a request of its own raised, and whose clock was moved past it. -/
theorem perform_no_false_alarm_of_raised :
    let b := (new Crossbar.initial).after
      [.setRequest .one true, .setAddress .one 0x8001, .toResponse, .device (.setClock true)]
    let s := { Scenario.blank "raised" with
      sequences := #v[[some (.write 0x8001 0xF 0)], [none, some (.read 0x8001)], []] }
    (b.Reached ∧ b.device.corruption = 0 ∧ b.device.spurious = none) ∧
    ∃ report bench, b.perform s = .ok (report, bench) ∧
      report.protocolViolations = [] ∧ report.dataMismatches = [] ∧
      (report.outcome = .done → report.failures = []) ∧
      (report.outcome = .aborted → ∃ f, report.failures = [f] ∧ f.kind = .timeout s.limit) ∧
      ∀ n c data, report.completions[n]? = some c → c.access = .read data →
        data = (Shadow.replay .standard (report.completions.take n)).expected c.address :=
  have hb := ⟨Crossbar.initial, _, ⟨[], rfl⟩, rfl⟩
  ⟨⟨hb, rfl, rfl⟩, perform_no_false_alarm hb rfl rfl _⟩

/-- At the end of a run the memories hold the shadow memory. Where the limit cut it off,
they lack exactly the writes of the last iteration, whatever faults are injected. -/
theorem perform_memories_follow_shadow {b : Testbench Crossbar} (hb : b.Reached)
    (s : Scenario) :
    ∃ report bench, b.perform s = .ok (report, bench) ∧
      (report.outcome = .done → ∀ p o, bench.device.word p o = report.shadow.word p o) ∧
      (report.outcome = .aborted →
        (∀ p o, bench.device.word p o =
          (Shadow.replay .standard
            (report.completions.filter fun c => c.iteration + 1 < report.iterations)).word p o) ∧
        report.shadow =
          (report.completions.filter fun c => c.iteration + 1 = report.iterations).foldl
            Shadow.absorb
            (Shadow.replay .standard
              (report.completions.filter fun c => c.iteration + 1 < report.iterations))) := by
  rcases perform_ends (P := fun k r => r.Agreeing k) (s := s) rfl (.launch hb s)
    (fun _ _ h _ => h.iterate) with ⟨n, r, -, -, h, hd, hp⟩ | ⟨n, r, -, h, hp⟩
  · refine ⟨_, _, hp, fun _ p o => ?_, by rintro ⟨⟩⟩
    exact Crossbar.word_eq (h.iterate.words_of_allDrained hd) p o
  · refine ⟨_, _, hp, by rintro ⟨⟩, fun _ => ⟨fun p o => ?_, h.shadow_eq⟩⟩
    exact Crossbar.word_eq h.behind p o

/-- Both faults are injected, and the limit is too low for the second write. -/
theorem perform_memories_follow_shadow_of_faulty :
    let b := (new Crossbar.initial).after
      [.device (.withCorruption 0xFF), .device (.withSpuriousReady .three)]
    let s := { (Scenario.blank "faulty").withLimit 3 with
      sequences := #v[[], [some (.write 0x8001 0xF 7), some (.write 0x8001 0x3 9)], []] }
    b.Reached ∧
    ∃ report bench, b.perform s = .ok (report, bench) ∧
      (report.outcome = .done → ∀ p o, bench.device.word p o = report.shadow.word p o) ∧
      (report.outcome = .aborted →
        (∀ p o, bench.device.word p o =
          (Shadow.replay .standard
            (report.completions.filter fun c => c.iteration + 1 < report.iterations)).word p o) ∧
        report.shadow =
          (report.completions.filter fun c => c.iteration + 1 = report.iterations).foldl
            Shadow.absorb
            (Shadow.replay .standard
              (report.completions.filter fun c => c.iteration + 1 < report.iterations))) :=
  have hb := ⟨Crossbar.initial, _, ⟨[], rfl⟩, rfl⟩
  ⟨hb, perform_memories_follow_shadow hb _⟩

end Testbench

end CrossbarBench
