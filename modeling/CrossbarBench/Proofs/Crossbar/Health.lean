import CrossbarBench.Proofs.Crossbar.Drain
import CrossbarBench.Proofs.Crossbar.Repeatability
import CrossbarBench.Proofs.Ledger.Faults

/-! Runs without injected faults. A scenario drains in an iteration of its own, whatever its limit
and whatever the bench has done before. A run finds nothing wrong until then, so it can fail in one
way only: by a limit that comes first. -/

namespace CrossbarBench

/-- How a run ends that would drain in iteration `n`: there and without failures, or cut off by its
limit and with no other failure. -/
structure Report.EndsBy (limit n : Nat) (r : Report) : Prop where
  done : n < limit → r.outcome = .done ∧ r.iterations = n ∧ r.failures = []
  aborted : limit ≤ n → r.outcome = .aborted ∧ r.iterations = max 1 limit ∧
    ∃ f, r.failures = [f] ∧ f.isTimeout = true

namespace Report.EndsBy

variable {r : Report} {limit n : Nat}

/-- A report fails by being cut off, and counts one error then. -/
theorem errorCount_eq (h : r.EndsBy limit n) :
    r.errorCount = if r.outcome = .aborted then 1 else 0 := by
  rw [errorCount]
  rcases Nat.lt_or_ge n limit with hl | hl
  · obtain ⟨ho, -, hf⟩ := h.done hl
    rw [ho, hf]
    rfl
  · obtain ⟨ho, -, f, hf, -⟩ := h.aborted hl
    rw [ho, hf]
    rfl

theorem passed_eq (h : r.EndsBy limit n) : r.passed = !decide (r.outcome = .aborted) := by
  rw [passed]
  rcases Nat.lt_or_ge n limit with hl | hl
  · obtain ⟨ho, -, hf⟩ := h.done hl
    rw [ho, hf]
    rfl
  · rw [(h.aborted hl).1]
    rfl

end Report.EndsBy

namespace Testbench

variable {b b' : Testbench Crossbar} {s : Scenario} {n : Nat}

/-- Two benches drain a scenario in the same iteration. -/
theorem DrainsAt.transfer (hb : b.Reached) (hb' : b'.Reached) (h : b.DrainsAt .standard s n) :
    b'.DrainsAt .standard s n := by
  have hall : ∀ m, (b.unroll .standard s m).allDrained = (b'.unroll .standard s m).allDrained :=
    fun m => (Run.Parallel.unroll hb.device.fits hb'.device.fits s m).allDrained
  exact ⟨hall n ▸ h.drained, fun m hm => hall m ▸ h.first m hm⟩

/-- A bench whose crossbar has no injected fault. -/
structure Healthy (b : Testbench Crossbar) : Prop where
  reached : b.Reached
  corruption : b.device.corruption = 0
  spurious : b.device.spurious = none

namespace Healthy

theorem new : (Testbench.new Crossbar.initial).Healthy :=
  ⟨⟨Crossbar.initial, [], ⟨[], rfl⟩, rfl⟩, rfl, rfl⟩

theorem announce (h : b.Healthy) (s : Scenario) : (b.announce s).Healthy :=
  ⟨(h.reached.call (.emit _)).call (.emit _), h.corruption, h.spurious⟩

theorem conclude (h : b.Healthy) (r : Report) : (b.conclude r).Healthy :=
  ⟨h.reached.call (.emit _), h.corruption, h.spurious⟩

/-- Until the limit nothing is found, so the iteration that drains decides how the run ends. -/
theorem perform (h : b.Healthy) (s : Scenario) :
    ∃ n report next, b.perform s = .ok (report, next) ∧ b.DrainsAt .standard s n ∧
      report.name = s.name ∧ report.EndsBy s.limit n ∧ next.Healthy := by
  obtain ⟨n, hn⟩ := exists_drainsAt h.reached s
  have hnone : ∀ m, (b.unroll .standard s m).failures.toList = [] := fun m =>
    (unaccused_unroll h.reached.device.fits h.corruption h.spurious s m).failures
  have hnext : ∀ {report next}, b.perform s = .ok (report, next) → next.Healthy := fun hp =>
    have hfaults := (Crossbar.closed_faults 0 none).perform (b := b) ⟨h.corruption, h.spurious⟩
      b.addressWidth_crossbar hp
    ⟨h.reached.perform hp, hfaults.1, hfaults.2⟩
  rcases perform_unroll b.addressWidth_crossbar s with ⟨m, hl, hm, hp⟩ | ⟨hf, hp⟩
  · -- the run has ended where it drains, which is in one iteration only
    obtain rfl := hm.unique hn
    exact ⟨m, _, _, hp, hm, rfl, ⟨fun _ => ⟨rfl, rfl, hnone m⟩, by omega⟩, hnext hp⟩
  · have hl : s.limit ≤ n := by
      by_contra hl
      have hd := hn.drained
      rw [hf n (Nat.lt_of_not_le hl)] at hd
      cases hd
    have hcut := failures_cutOff b .standard s
    rw [hnone, List.nil_append] at hcut
    exact ⟨n, _, _, hp, hn, rfl, ⟨by omega, fun _ => ⟨rfl, rfl, _, hcut, rfl⟩⟩, hnext hp⟩

/-- So each scenario of a campaign ends by its own limit alone. -/
theorem performAll (h : b.Healthy) (scenarios : List Scenario) :
    ∃ reports last, b.performAll scenarios = .ok (reports, last) ∧
      List.Forall₂ (fun s report => report.name = s.name ∧
        ∃ n, b.DrainsAt .standard s n ∧ report.EndsBy s.limit n) scenarios reports := by
  obtain ⟨reports, last, hall, hends, -⟩ := performAll_ends
    (P := fun _ b' => b'.Healthy)
    (R := fun s report => report.name = s.name ∧
      ∃ n, b.DrainsAt .standard s n ∧ report.EndsBy s.limit n)
    (by
      intro s done b' hb'
      obtain ⟨n, report, next, hp, hn, hname, hend, hnext⟩ := (hb'.announce s).perform s
      exact ⟨report, next, hp,
        ⟨hname, n, hn.transfer (hb'.announce s).reached h.reached, hend⟩, hnext.conclude report⟩)
    scenarios [] h
  exact ⟨reports, last, hall, hends⟩

end Healthy

end Testbench

end CrossbarBench
