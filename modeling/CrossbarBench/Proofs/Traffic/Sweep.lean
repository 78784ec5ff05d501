import Mathlib.Algebra.Group.Action.Defs
import Mathlib.Algebra.Order.BigOperators.Group.List
import CrossbarBench.Proofs.Crossbar.Health
import CrossbarBench.Proofs.Traffic.Draws
import CrossbarBench.Traffic.Catalogue

/-! The sweep over all combinations of delays. Its iteration limits are a guess from the delays and
the number of slots, while a run takes what its traffic takes: at the soonest an iteration for every
slot and one more, at the latest as if every slot held a request that two others are served before.
So on a crossbar without injected faults every run of the sweep passes whose traffic drains below
the limit, and every other fails by its timeout alone. -/

namespace CrossbarBench

/-! ### Spans -/

namespace Scenario

variable {s : Scenario} {count : Nat}

theorem count_lt_soonest (h : ∀ c, (s.sequences.get c).length = count) : count < s.soonest := by
  have hspan : count ≤ s.span (Slot.soonest s.delays) Port.one := by
    have hone : ∀ cost ∈ (s.sequences.get Port.one).map (Slot.soonest s.delays), 1 ≤ cost := by
      intro cost hc
      obtain ⟨slot, -, rfl⟩ := List.mem_map.mp hc
      cases slot with
      | none => exact Nat.le_refl 1
      | some q => exact Nat.le_add_left 1 _
    have hsum := List.card_nsmul_le_sum _ 1 hone
    rwa [List.length_map, h, smul_eq_mul, Nat.mul_one] at hsum
  have hsup := Finset.le_sup (f := s.span (Slot.soonest s.delays)) (Finset.mem_univ Port.one)
  unfold soonest
  omega

theorem latest_le {slowest : Nat} (h : ∀ c, (s.sequences.get c).length = count)
    (hd : ∀ p, s.delays.get p ≤ slowest) : s.latest ≤ 1 + count * (3 * slowest + 4) := by
  have hspan : ∀ c, s.span (Slot.latest s.delays) c ≤ count * (3 * slowest + 4) := by
    intro c
    have hcost : ∀ cost ∈ (s.sequences.get c).map (Slot.latest s.delays),
        cost ≤ 3 * slowest + 4 := by
      intro cost hc
      obtain ⟨slot, -, rfl⟩ := List.mem_map.mp hc
      cases slot with
      | none => exact Nat.le_add_left 1 _
      | some q =>
        have hq := hd (AddressMap.standard.peripheral q.address)
        change 3 * _ + 4 ≤ _
        omega
    have hsum := List.sum_le_card_nsmul _ _ hcost
    rwa [List.length_map, h, smul_eq_mul] at hsum
  exact Nat.add_le_add_left (Finset.sup_le fun c _ => hspan c) 1

end Scenario

/-! ### The sweep -/

namespace Catalogue

theorem mapM_eq_ok {α β : Type} {f : α → Except Fault β} {g : α → β} {xs : List α}
    (h : ∀ x ∈ xs, f x = .ok (g x)) : xs.mapM f = .ok (xs.map g) := by
  induction xs with
  | nil => rfl
  | cons x xs ih =>
    rw [List.mapM_cons, h x List.mem_cons_self, ih fun y hy => h y (List.mem_cons_of_mem x hy)]
    rfl

/-- The delays of the sweep add up to eight at the most. -/
theorem sum_le_of_mem_sweepDelays {delays : Table 4 Nat} (h : delays ∈ sweepDelays) :
    delays.foldl (· + ·) 0 ≤ 8 := by
  revert delays
  decide

theorem sweepLimit_eq {delays : Table 4 Nat} {count : Nat} (hd : delays ∈ sweepDelays)
    (hcount : 10 * count * 120 < 2 ^ 64) :
    sweepLimit delays count =
      .ok ((delays.foldl (· + ·) 0 + 2) * count * 120 / 100 % 2 ^ 32) := by
  have hsum := sum_le_of_mem_sweepDelays hd
  have hmul : (delays.foldl (· + ·) 0 + 2) * count ≤ 10 * count :=
    Nat.mul_le_mul_right count (by omega)
  unfold sweepLimit
  dsimp only
  rw [if_pos (by omega), BitVec.toNat_ofNat]

/-- The scenario of the sweep with these delays. -/
def sweepAt (map : AddressMap) (seed count : Nat) (delays : Table 4 Nat) : Scenario :=
  sweepScenario (Traffic.random map seed count) delays
    ((delays.foldl (· + ·) 0 + 2) * count * 120 / 100 % 2 ^ 32)

theorem delaySweep_eq (map : AddressMap) (seed : Nat) {count : Nat}
    (hcount : 10 * count * 120 < 2 ^ 64) :
    delaySweep map seed count = .ok (sweepDelays.map (sweepAt map seed count)) := by
  have hlimits : sweepDelays.mapM (fun delays => sweepLimit delays count) = .ok _ :=
    mapM_eq_ok fun _ hd => sweepLimit_eq hd hcount
  have hscenarios : List.zipWith (sweepScenario (Traffic.random map seed count)) sweepDelays
      (sweepDelays.map fun delays =>
        (delays.foldl (· + ·) 0 + 2) * count * 120 / 100 % 2 ^ 32) =
      sweepDelays.map (sweepAt map seed count) := by
    rw [List.zipWith_map_right, List.zipWith_self]
    rfl
  rw [delaySweep, hlimits, ← hscenarios]
  rfl

theorem length_sweepAt (map : AddressMap) (seed count : Nat) (delays : Table 4 Nat) (c : Port) :
    ((sweepAt map seed count delays).sequences.get c).length = count :=
  Traffic.length_random map seed count c

end Catalogue

/-! ### Its runs -/

/-- How a run of the sweep ends that has so many slots on every port. Where its traffic drains is the
same on every bench and lies between the bounds that the slots and the delays set, so its limit
alone decides: the run passes if that is beyond all that the traffic can take, and is cut off if
that is at most one more than the slots. -/
structure Report.EndsSweep (count : Nat) (s : Scenario) (r : Report) : Prop where
  name : r.name = s.name
  limit : s.limit = (s.delays.foldl (· + ·) 0 + 2) * count * 120 / 100 % 2 ^ 32
  drains : ∃ n, (∀ b : Testbench Crossbar, b.Reached → b.DrainsAt .standard s n) ∧
    r.EndsBy s.limit n ∧ count < s.soonest ∧ s.soonest ≤ n ∧ n ≤ s.latest
  latest : ∀ slowest, (∀ p, s.delays.get p ≤ slowest) → s.latest ≤ 1 + count * (3 * slowest + 4)
  passes : ∀ slowest, (∀ p, s.delays.get p ≤ slowest) → 1 + count * (3 * slowest + 4) < s.limit →
    r.outcome = .done ∧ r.failures = []
  cutOff : s.limit ≤ count + 1 → r.outcome = .aborted

namespace Testbench

variable {b : Testbench Crossbar}

theorem DrainsAt.endsSweep {s : Scenario} {n count : Nat} {report : Report} (hb : b.Reached)
    (h : b.DrainsAt .standard s n) (hlength : ∀ c, (s.sequences.get c).length = count)
    (hname : report.name = s.name)
    (hlimit : s.limit = (s.delays.foldl (· + ·) 0 + 2) * count * 120 / 100 % 2 ^ 32)
    (hend : report.EndsBy s.limit n) : report.EndsSweep count s := by
  have hslots := Scenario.count_lt_soonest hlength
  have hsoonest := h.soonest_le hb
  have hlatest := h.le_latest hb
  have hbound : ∀ slowest, (∀ p, s.delays.get p ≤ slowest) →
      s.latest ≤ 1 + count * (3 * slowest + 4) := fun _ => Scenario.latest_le hlength
  refine ⟨hname, hlimit, ⟨n, fun b' hb' => h.transfer hb hb', hend, hslots, hsoonest, hlatest⟩,
    hbound, fun slowest hd hl => ?_, fun hl => ?_⟩
  · obtain ⟨hdone, -, hnone⟩ := hend.done ((hlatest.trans (hbound slowest hd)).trans_lt hl)
    exact ⟨hdone, hnone⟩
  · exact (hend.aborted ((hl.trans hslots).trans hsoonest)).1

theorem campaign_sweepAt (h : b.Healthy) (seed count : Nat) :
    ∃ reports last,
      b.campaign (Catalogue.sweepDelays.map (Catalogue.sweepAt .standard seed count)) =
        .ok (⟨reports⟩, last) ∧
      List.Forall₂ (fun delays report =>
        report.EndsSweep count (Catalogue.sweepAt .standard seed count delays))
        Catalogue.sweepDelays reports := by
  obtain ⟨reports, last, hall, hends⟩ :=
    h.performAll (Catalogue.sweepDelays.map (Catalogue.sweepAt .standard seed count))
  refine ⟨reports, last, campaign_eq hall, ?_⟩
  rw [List.forall₂_map_left_iff] at hends
  refine hends.imp fun delays report hreport => ?_
  obtain ⟨hname, n, hn, hend⟩ := hreport
  have hlength := Catalogue.length_sweepAt .standard seed count delays
  exact hn.endsSweep h.reached hlength hname rfl hend

/-- Each run of the sweep ends where its traffic drains and without failures, if that is below its
limit, and is otherwise cut off with its timeout as the only failure. -/
theorem campaign_delaySweep (h : b.Healthy) (seed : Nat) {count : Nat}
    (hcount : 10 * count * 120 < 2 ^ 64) :
    ∃ scenarios summary last,
      Catalogue.delaySweep .standard seed count = .ok scenarios ∧ scenarios.length = 81 ∧
      scenarios.map Scenario.delays = Catalogue.sweepDelays ∧
      b.campaign scenarios = .ok (summary, last) ∧
      List.Forall₂ (fun s report => report.EndsSweep count s) scenarios summary.reports := by
  obtain ⟨reports, last, hrun, hends⟩ := campaign_sweepAt h seed count
  have hdelays : (Catalogue.sweepDelays.map (Catalogue.sweepAt .standard seed count)).map
      Scenario.delays = Catalogue.sweepDelays := by
    rw [List.map_map]
    exact List.map_id _
  exact ⟨_, ⟨reports⟩, last, Catalogue.delaySweep_eq .standard seed hcount, rfl, hdelays, hrun,
    List.forall₂_map_left_iff.mpr hends⟩

/-- Random traffic of thirty slots, on a bench that has cut a run off and has a request raised. -/
theorem campaign_delaySweep_of_used :
    let b := (new Crossbar.initial).after
      [.perform { (Scenario.blank "cut off").withLimit 2 with
          sequences := #v[[some (.read 0x8001)], [], []] },
        .setRequest .two true]
    (b.Healthy ∧ 10 * 30 * 120 < 2 ^ 64) ∧
    ∃ scenarios summary last,
      Catalogue.delaySweep .standard 42 30 = .ok scenarios ∧ scenarios.length = 81 ∧
      scenarios.map Scenario.delays = Catalogue.sweepDelays ∧
      b.campaign scenarios = .ok (summary, last) ∧
      List.Forall₂ (fun s report => report.EndsSweep 30 s) scenarios summary.reports :=
  have hb := ⟨⟨Crossbar.initial, _, ⟨[], rfl⟩, rfl⟩, by decide +kernel, by decide +kernel⟩
  ⟨⟨hb, by decide⟩, campaign_delaySweep hb 42 (by decide)⟩

/-- With a single slot and no delays the limit is two, which no run reaches. -/
theorem delaySweep_cut_off_at_one_slot :
    (new Crossbar.initial).Healthy ∧ 10 * 1 * 120 < 2 ^ 64 ∧
    ∃ scenarios summary last, Catalogue.delaySweep .standard 42 1 = .ok scenarios ∧
      (new Crossbar.initial).campaign scenarios = .ok (summary, last) ∧
      ∃ report ∈ summary.reports, report.name = "variable_delay_fuzz/0/0/0/0" ∧
        report.outcome = .aborted ∧ report.errorCount = 1 := by
  have hb := Healthy.new
  obtain ⟨reports, last, hrun, hends⟩ := campaign_sweepAt hb 42 1
  refine ⟨hb, by decide, _, ⟨reports⟩, last, Catalogue.delaySweep_eq .standard 42 (by decide),
    hrun, ?_⟩
  have hfirst : Catalogue.sweepDelays = #v[0, 0, 0, 0] :: Catalogue.sweepDelays.tail := rfl
  rw [hfirst, List.forall₂_cons_left_iff] at hends
  obtain ⟨report, rest, hreport, -, rfl⟩ := hends
  have haborted := hreport.cutOff (Nat.le_refl 2)
  obtain ⟨n, -, hend, -⟩ := hreport.drains
  exact ⟨report, List.mem_cons_self, hreport.name, haborted,
    by rw [hend.errorCount_eq, if_pos haborted]⟩

end Testbench

end CrossbarBench
