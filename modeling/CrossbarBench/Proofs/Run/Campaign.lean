import Mathlib.Data.List.Forall2
import CrossbarBench.Check.Campaign

/-! Campaigns scenario by scenario, for any device. What every scenario keeps, together with the
reports made so far, a campaign keeps; and what every run reports of its scenario holds of the
reports of a campaign in turn. -/

namespace CrossbarBench.Testbench

variable {σ : Type} [Device σ] {b next last : Testbench σ}

theorem performAll_cons {s : Scenario} {rest : List Scenario} {report : Report}
    {reports : List Report} (hp : (b.announce s).perform s = .ok (report, next))
    (hr : (next.conclude report).performAll rest = .ok (reports, last)) :
    b.performAll (s :: rest) = .ok (report :: reports, last) := by
  simp only [performAll, hp, hr, pure, Except.pure, bind, Except.bind]

/-- The invariant `P` is on the reports made so far and the bench that has made them. -/
theorem performAll_ends {P : List Report → Testbench σ → Prop} {R : Scenario → Report → Prop}
    (run : ∀ s done b, P done b → ∃ report next, (b.announce s).perform s = .ok (report, next) ∧
      R s report ∧ P (done ++ [report]) (next.conclude report))
    (scenarios : List Scenario) : ∀ (done : List Report) {b : Testbench σ}, P done b →
      ∃ reports last, b.performAll scenarios = .ok (reports, last) ∧
        List.Forall₂ R scenarios reports ∧ P (done ++ reports) last := by
  induction scenarios with
  | nil =>
    intro done b h
    exact ⟨[], b, rfl, .nil, by rwa [List.append_nil]⟩
  | cons s rest ih =>
    intro done b h
    obtain ⟨report, next, hp, hr, hnext⟩ := run s done b h
    obtain ⟨reports, last, hall, hrest, hlast⟩ := ih _ hnext
    refine ⟨report :: reports, last, performAll_cons hp hall, .cons hr hrest, ?_⟩
    rwa [List.append_assoc] at hlast

/-- Every report is that of some scenario. -/
theorem exists_scenario {R : Scenario → Report → Prop} {scenarios : List Scenario}
    {reports : List Report} (h : List.Forall₂ R scenarios reports) {report : Report}
    (hr : report ∈ reports) : ∃ s ∈ scenarios, R s report := by
  induction h with
  | nil => cases hr
  | cons hs _ ih =>
    rcases List.mem_cons.mp hr with rfl | hr
    · exact ⟨_, List.mem_cons_self, hs⟩
    · obtain ⟨s, hmem, hs⟩ := ih hr
      exact ⟨s, List.mem_cons_of_mem _ hmem, hs⟩

theorem campaign_eq {scenarios : List Scenario} {reports : List Report}
    (h : b.performAll scenarios = .ok (reports, last)) :
    b.campaign scenarios = .ok (⟨reports⟩, last) := by
  rw [campaign, h]
  rfl

end CrossbarBench.Testbench
