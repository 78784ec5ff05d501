import CrossbarBench.Proofs.Crossbar.Comparison
import CrossbarBench.Proofs.Crossbar.History
import CrossbarBench.Proofs.Run.Campaign

/-! Runs do not depend on what was done before. Crossbars with the same injected faults, whatever
calls have led to them, give the same report of a scenario, but for a delay of all the times in
it. So a campaign reports what its scenarios do on benches of their own. -/

namespace CrossbarBench

/-- The failure as found that much later. -/
def Failure.delayed (n : Nat) (f : Failure) : Failure := { f with time := f.time + n }

/-- The report of the run made that much later. -/
def Report.delayed (n : Nat) (r : Report) : Report :=
  { r with failures := r.failures.map (Failure.delayed n) }

theorem Failure.delayed_ofObjection (n time : Nat) (o : Completion × FailureKind) :
    (ofObjection time o).delayed n = ofObjection (time + n) o := rfl

namespace Crossbar

/-- Nothing that a testbench does changes the faults that are injected. -/
theorem closed_faults (mask : Word) (port : Option Port) :
    Device.Closed fun x : Crossbar => x.corruption = mask ∧ x.spurious = port where
  sample x _ h :=
    ⟨(SameSetup.eval x).corruption.trans h.1, (SameSetup.eval x).spurious.trans h.2⟩
  setClock _ _ h := h
  setReset _ _ h := h
  setDelay x peripheral delay h := by
    rw [device_setDelay, setDelay]
    split <;> exact h
  drive x port signal value h := by
    rw [device_drive, drive]
    split <;> exact h

end Crossbar

namespace Run

variable {r r' : Run Crossbar} {t t' : Nat}

theorem delayed_violations (d : Crossbar) (time k n : Nat) (ports : List Port) :
    (violations d time k ports).map (Failure.delayed n) = violations d (time + n) k ports := by
  rw [violations, List.map_map]
  rfl

/-- Two runs that have done and found the same, one as long after `t` as the other is after
`t'`. -/
structure Repeats (t t' : Nat) (r r' : Run Crossbar) : Prop where
  parallel : Parallel t t' r r'
  corruption : r.bench.device.corruption = r'.bench.device.corruption
  spurious : r.bench.device.spurious = r'.bench.device.spurious
  failures : r.failures.toList.map (Failure.delayed t') =
    r'.failures.toList.map (Failure.delayed t)

namespace Repeats

theorem completions (h : Repeats t t' r r') : r.completions.toList = r'.completions.toList := by
  have hx : r'.bench.device.corruption ^^^ r'.bench.device.corruption = 0 := BitVec.xor_self
  rw [h.parallel.completions, h.corruption, hx, Completion.map_corrupt_zero]

theorem launch {b b' : Testbench Crossbar} (hb : ∀ c, (b.device.controllers.get c).Fits c)
    (hb' : ∀ c, (b'.device.controllers.get c).Fits c)
    (hc : b.device.corruption = b'.device.corruption)
    (hs : b.device.spurious = b'.device.spurious) (s : Scenario) :
    Repeats b.origin b'.origin (b.launch .standard s) (b'.launch .standard s) := by
  obtain ⟨-, -, hcorr, hspur⟩ := Testbench.fresh_prepare b s.delays
  obtain ⟨-, -, hcorr', hspur'⟩ := Testbench.fresh_prepare b' s.delays
  refine ⟨.launch hb hb' s, ?_, ?_, ?_⟩
  · rw [Testbench.bench_launch, Testbench.bench_launch, hcorr, hcorr', hc]
  · rw [Testbench.bench_launch, Testbench.bench_launch, hspur, hspur', hs]
  · rw [Testbench.failures_launch, Testbench.failures_launch]
    rfl

theorem entries_iterate (h : Repeats t t' r r') (k : Nat) :
    Device.entries r.stimulate.bench.toResponse.device k =
      Device.entries r'.stimulate.bench.toResponse.device k := by
  have hx : r'.bench.device.corruption ^^^ r'.bench.device.corruption = 0 := BitVec.xor_self
  rw [h.parallel.entries_iterate, h.corruption, hx, Completion.map_corrupt_zero]

/-- An iteration finds in both runs the same, as far apart as the runs are. -/
theorem iterate (h : Repeats t t' r r') (k : Nat) : Repeats t t' (r.iterate k) (r'.iterate k) where
  parallel := h.parallel.iterate k
  corruption := by rw [corruption_iterate, corruption_iterate, h.corruption]
  spurious := by rw [spurious_iterate, spurious_iterate, h.spurious]
  failures := by
    have htime : r.stimulate.bench.toResponse.time + t' =
        r'.stimulate.bench.toResponse.time + t := by
      have ho := h.parallel.origin
      rw [time_toResponse_stimulate, time_toResponse_stimulate]
      omega
    rw [failures_iterate, failures_iterate, List.map_append, List.map_append, List.map_append,
      List.map_append, delayed_violations, delayed_violations, List.map_map, List.map_map,
      h.failures, h.entries_iterate, h.parallel.shadow, htime, violations, violations,
      readyUnasked_congr (h.parallel.device_iterate k).sameCourse h.spurious]
    simp only [Function.comp_def, Failure.delayed_ofObjection, htime]

theorem unroll {b b' : Testbench Crossbar} (hb : ∀ c, (b.device.controllers.get c).Fits c)
    (hb' : ∀ c, (b'.device.controllers.get c).Fits c)
    (hc : b.device.corruption = b'.device.corruption)
    (hs : b.device.spurious = b'.device.spurious) (s : Scenario) (n : Nat) :
    Repeats b.origin b'.origin (b.unroll .standard s n) (b'.unroll .standard s n) := by
  induction n with
  | zero => exact .launch hb hb' hc hs s
  | succ n ih => exact ih.iterate (n + 1)

/-- The limit cuts both runs off alike. -/
theorem timeOut (h : Repeats t t' r r') (limit iteration : Nat) :
    Repeats t t' (r.timeOut limit iteration) (r'.timeOut limit iteration) where
  parallel := h.parallel.timeOut limit iteration
  corruption := h.corruption
  spurious := h.spurious
  failures := by
    have ht := h.parallel.time
    simp only [Run.timeOut, fail, Array.toList_push, List.map_append, h.failures, List.map_cons,
      List.map_nil, Failure.delayed, ht]

theorem report (h : Repeats t t' r r') (name : String) (outcome : Outcome) (iterations : Nat) :
    (r.report name outcome iterations).delayed t' =
      (r'.report name outcome iterations).delayed t := by
  simp only [Run.report, Report.delayed, h.failures, h.completions, h.parallel.shadow]

theorem word (h : Repeats t t' r r') (p o : Nat) :
    r.bench.device.word p o = r'.bench.device.word p o :=
  Crossbar.word_congr h.parallel.device.memories p o

end Repeats

end Run

namespace Testbench

variable {b b' : Testbench Crossbar}

/-- The runs of one scenario on two benches that have been set up with the same faults. -/
theorem perform_repeats (hb : b.device.Reached) (hb' : b'.device.Reached)
    (hc : b.device.corruption = b'.device.corruption)
    (hs : b.device.spurious = b'.device.spurious) (s : Scenario) :
    ∃ report bench report' bench', b.perform s = .ok (report, bench) ∧
      b'.perform s = .ok (report', bench') ∧
      report.delayed b'.origin = report'.delayed b.origin ∧
      ∀ p o, bench.device.word p o = bench'.device.word p o := by
  have h := Run.Repeats.unroll hb.fits hb'.fits hc hs s
  rcases perform_lockstep b.addressWidth_crossbar b'.addressWidth_crossbar (s := s) rfl
    fun n => (h n).parallel.allDrained with ⟨n, hp, hp'⟩ | ⟨hp, hp'⟩
  · exact ⟨_, _, _, _, hp, hp', (h n).report _ _ _, (h n).word⟩
  · have hcut := (h (s.limit - 1)).timeOut s.limit (max 1 s.limit)
    exact ⟨_, _, _, _, hp, hp', hcut.report _ _ _, hcut.word⟩

/-! ### Campaigns -/

/-- Every report of a campaign is that of its scenario alone. -/
theorem performAll_repeats (hb' : b'.device.Reached) (scenarios : List Scenario) :
    ∀ {b : Testbench Crossbar}, b.device.Reached →
      b.device.corruption = b'.device.corruption → b.device.spurious = b'.device.spurious →
      ∃ reports last, b.performAll scenarios = .ok (reports, last) ∧
        reports.length = scenarios.length ∧
        ∀ k s, scenarios[k]? = some s →
          ∃ earlier before report alone bench,
            b.performAll (scenarios.take k) = .ok (earlier, before) ∧
            reports[k]? = some report ∧ b'.perform s = .ok (alone, bench) ∧
            report.delayed b'.origin = alone.delayed before.origin := by
  induction scenarios with
  | nil => exact fun _ _ _ => ⟨[], _, rfl, rfl, nofun⟩
  | cons s rest ih =>
    intro b hb hc hs
    obtain ⟨report, next, alone, bench, hp, hp', hrep, -⟩ :=
      perform_repeats (b := b.announce s) hb hb' hc hs s
    have width := (b.announce s).addressWidth_crossbar
    have hnext := Crossbar.closed_reached.perform (b := b.announce s) hb width hp
    have hfaults := (Crossbar.closed_faults _ _).perform (b := b.announce s) ⟨hc, hs⟩ width hp
    obtain ⟨reports, last, hall, hlen, hrest⟩ :=
      ih (b := next.conclude report) hnext hfaults.1 hfaults.2
    refine ⟨report :: reports, last, performAll_cons hp hall, congrArg Nat.succ hlen, ?_⟩
    intro k s' hk
    cases k with
    | zero =>
      cases hk
      exact ⟨[], b, report, alone, bench, rfl, rfl, hp', hrep⟩
    | succ k =>
      obtain ⟨earlier, before, report', alone', bench', hbefore, hk', hp'', hrep'⟩ := hrest k s' hk
      exact ⟨report :: earlier, before, report', alone', bench',
        performAll_cons hp hbefore, hk', hp'', hrep'⟩

/-- Of two benches with the same injected faults, whatever calls have led to them, each reports
of a scenario what the other does, with all times later by as much as its next rising edge is,
and leaves the same words. So every report of a campaign is the one that a bench of its own gives
of the scenario, up to that delay. -/
theorem perform_independent_of_history (hb : b.Reached) (hb' : b'.Reached)
    (hc : b.device.corruption = b'.device.corruption)
    (hs : b.device.spurious = b'.device.spurious) :
    (∀ s, ∃ report bench report' bench', b.perform s = .ok (report, bench) ∧
      b'.perform s = .ok (report', bench') ∧
      report.delayed b'.origin = report'.delayed b.origin ∧
      ∀ p o, bench.device.word p o = bench'.device.word p o) ∧
    ∀ scenarios, ∃ summary last, b.campaign scenarios = .ok (summary, last) ∧
      summary.reports.length = scenarios.length ∧
      ∀ k s, scenarios[k]? = some s →
        ∃ earlier before report alone bench,
          b.performAll (scenarios.take k) = .ok (earlier, before) ∧
          summary.reports[k]? = some report ∧ b'.perform s = .ok (alone, bench) ∧
          report.delayed b'.origin = alone.delayed before.origin := by
  refine ⟨perform_repeats hb.device hb'.device hc hs, fun scenarios => ?_⟩
  obtain ⟨reports, last, hall, hrest⟩ := performAll_repeats hb'.device scenarios hb.device hc hs
  refine ⟨⟨reports⟩, last, ?_, hrest⟩
  rw [campaign, hall]
  rfl

/-- A bench that has aborted a run and been left with a request raised and its reset low, beside
a new one. -/
theorem perform_independent_of_history_of_disturbed :
    let x := Crossbar.initial.withCorruption 0xFF
    let b := (new x).after
      [.perform { (Scenario.blank "aborted").withLimit 4 with
          sequences := #v[[some (.read 0x8001)], [some (.write 0x8001 0xF 7)], []] },
        .setRequest .three true, .device (.setReset false), .device (.setClock true)]
    (b.Reached ∧ (new x).Reached ∧ b.device.corruption = (new x).device.corruption ∧
      b.device.spurious = (new x).device.spurious) ∧
    (∀ s, ∃ report bench report' bench', b.perform s = .ok (report, bench) ∧
      (new x).perform s = .ok (report', bench') ∧
      report.delayed (new x).origin = report'.delayed b.origin ∧
      ∀ p o, bench.device.word p o = bench'.device.word p o) ∧
    ∀ scenarios, ∃ summary last, b.campaign scenarios = .ok (summary, last) ∧
      summary.reports.length = scenarios.length ∧
      ∀ k s, scenarios[k]? = some s →
        ∃ earlier before report alone bench,
          b.performAll (scenarios.take k) = .ok (earlier, before) ∧
          summary.reports[k]? = some report ∧ (new x).perform s = .ok (alone, bench) ∧
          report.delayed (new x).origin = alone.delayed before.origin :=
  have hb : Reached _ := ⟨_, _, ⟨[.withCorruption 0xFF], rfl⟩, rfl⟩
  have hb' : Reached _ := ⟨_, [], ⟨[.withCorruption 0xFF], rfl⟩, rfl⟩
  have hc := by decide +kernel
  have hs := by decide +kernel
  ⟨⟨hb, hb', hc, hs⟩, perform_independent_of_history hb hb' hc hs⟩

end Testbench

end CrossbarBench
