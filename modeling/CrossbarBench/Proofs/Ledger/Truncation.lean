import CrossbarBench.Proofs.Ledger.Audit
import CrossbarBench.Proofs.Run.Unroll

/-! A shorter limit gives a shorter run, whatever the device answers. What an iteration enters
into the report carries its number, so the report of the run that is cut off earlier is the
part of the longer one that was written before the limit, and then the timeout. -/

namespace CrossbarBench

/-- The report is what a limit leaves of the full one. -/
structure Report.CutFrom (full : Report) (map : AddressMap) (limit : Nat) (r : Report) :
    Prop where
  name : r.name = full.name
  outcome : r.outcome = .aborted
  iterations : r.iterations = max 1 limit
  completions : r.completions = full.completions.filter fun c => c.iteration < limit
  failures : ∃ time, r.failures = (full.failures.filter fun f => f.iteration < limit) ++
    [⟨.timeout limit, time, max 1 limit, none⟩]
  shadow : r.shadow = Shadow.replay map r.completions

theorem AddressMap.width_of_ofWidth {width : Nat} {map : AddressMap}
    (h : ofWidth width = .ok map) : width = map.width := by
  unfold ofWidth at h
  split at h
  · cases h
    rfl
  · cases h

namespace Run

variable {σ : Type} [Device σ] {map : AddressMap}

theorem completions_added (r : Run σ) (k : Nat) :
    ∃ added, (r.iterate k).completions.toList = r.completions.toList ++ added ∧
      ∀ c ∈ added, c.iteration = k :=
  ⟨_, completions_iterate r k, fun _ hc => Device.iteration_of_mem_entries hc⟩

/-- Failures are found at the moment of the response phase. -/
theorem failures_added (r : Run σ) (k : Nat) :
    ∃ added, (r.iterate k).failures.toList = r.failures.toList ++ added ∧
      ∀ f ∈ added, f.iteration = k ∧ f.time = r.stimulate.bench.toResponse.time := by
  refine ⟨_, failures_iterate r k, fun f hf => ?_⟩
  rcases List.mem_append.mp hf with hf | hf
  · obtain ⟨port, -, rfl⟩ := List.mem_map.mp hf
    exact ⟨rfl, rfl⟩
  · obtain ⟨o, ho, rfl⟩ := List.mem_map.mp hf
    exact ⟨Device.iteration_of_mem_entries (Shadow.read_of_mem_objections ho).1, rfl⟩

end Run

namespace Testbench

variable {σ : Type} [Device σ]

section Unroll
variable {b : Testbench σ} {map : AddressMap} {s : Scenario}

/-- A list that a run only adds to, numbering what it adds, has at the end before a limit what
it had when the limit was reached. -/
theorem filter_unroll {α : Type} (field : Run σ → List α) {number : α → Nat}
    (start : field (b.launch map s) = [])
    (added : ∀ r k, ∃ new, field (Run.iterate k r) = field r ++ new ∧ ∀ a ∈ new, number a = k)
    {limit n : Nat} (h : limit - 1 ≤ n) :
    ((field (b.unroll map s n)).filter fun a => number a < limit) =
      field (b.unroll map s (limit - 1)) := by
  have hnumber : ∀ n, ∀ a ∈ field (b.unroll map s n), 1 ≤ number a ∧ number a ≤ n := by
    refine unroll_induction (P := fun n r => ∀ a ∈ field r, 1 ≤ number a ∧ number a ≤ n) ?_ ?_
    · rw [start]
      nofun
    · intro n r hr a ha
      obtain ⟨new, he, hn⟩ := added r (n + 1)
      rw [he, List.mem_append] at ha
      rcases ha with ha | ha
      · have := hr a ha
        omega
      · rw [hn a ha]
        omega
  induction h with
  | refl =>
    refine List.filter_eq_self.mpr fun a ha => ?_
    have := hnumber _ a ha
    simp
    omega
  | @step n hn ih =>
    have hlimit : limit - 1 ≤ n := hn
    obtain ⟨new, he, hn⟩ := added (b.unroll map s n) (n + 1)
    have hnew : (new.filter fun a => number a < limit) = [] :=
      List.filter_eq_nil_iff.mpr fun a ha => by
        rw [hn a ha]
        simp
        omega
    rw [unroll, he, List.filter_append, hnew, ih, List.append_nil]

theorem completions_unroll_filter {limit n : Nat} (h : limit - 1 ≤ n) :
    ((b.unroll map s n).completions.toList.filter fun c => c.iteration < limit) =
      (b.unroll map s (limit - 1)).completions.toList :=
  filter_unroll (fun r => r.completions.toList) rfl Run.completions_added h

theorem failures_unroll_filter {limit n : Nat} (h : limit - 1 ≤ n) :
    ((b.unroll map s n).failures.toList.filter fun f => f.iteration < limit) =
      (b.unroll map s (limit - 1)).failures.toList :=
  filter_unroll (fun r => r.failures.toList) rfl (fun r k => by
    obtain ⟨added, he, hf⟩ := Run.failures_added r k
    exact ⟨added, he, fun f h => (hf f h).1⟩) h

theorem completions_cutOff_withLimit (limit : Nat) :
    (b.cutOff map (s.withLimit limit)).1.completions =
      (b.unroll map s (limit - 1)).completions.toList := by
  rw [← unroll_withLimit b map s limit]
  rfl

/-- The timeout comes after every lower limit. -/
theorem failures_cutOff_filter {low high : Nat} (h : low ≤ high) :
    ((b.cutOff map (s.withLimit high)).1.failures.filter fun f => f.iteration < low) =
      (b.unroll map s (high - 1)).failures.toList.filter fun f => f.iteration < low := by
  have hlate : ¬ max 1 high < low := by omega
  rw [failures_cutOff, unroll_withLimit, List.filter_append]
  simp [timeout, hlate, Scenario.withLimit]

/-- A run that is cut off reports what it had in common with any longer one. -/
theorem cutFrom_cutOff {full : Report} {limit n : Nat} (hn : limit - 1 ≤ n)
    (name : full.name = s.name)
    (completions : full.completions = (b.unroll map s n).completions.toList)
    (failures : (full.failures.filter fun f => f.iteration < limit) =
      (b.unroll map s n).failures.toList.filter fun f => f.iteration < limit) :
    full.CutFrom map limit (b.cutOff map (s.withLimit limit)).1 where
  name := name.symm
  outcome := rfl
  iterations := rfl
  completions := by
    rw [completions, completions_unroll_filter hn, completions_cutOff_withLimit]
  failures := by
    rw [failures, failures_unroll_filter hn, failures_cutOff, unroll_withLimit]
    exact ⟨_, rfl⟩
  shadow := (audited_unroll b map (s.withLimit limit) (limit - 1)).replayed

/-- How a run ends with another limit. -/
theorem perform_withLimit_ends (width : Device.addressWidth b.device = map.width) (s : Scenario)
    (limit : Nat) :
    (∃ n, n < limit ∧ b.DrainsAt map s n ∧
      b.perform (s.withLimit limit) = .ok (b.finished map s n)) ∨
    ((∀ n, n < limit → (b.unroll map s n).allDrained = false) ∧
      b.perform (s.withLimit limit) = .ok (b.cutOff map (s.withLimit limit))) := by
  have hu : b.unroll map (s.withLimit limit) = b.unroll map s :=
    funext (unroll_withLimit b map s limit)
  rcases perform_unroll width (s.withLimit limit) with ⟨n, hl, ⟨hd, hf⟩, hp⟩ | ⟨hf, hp⟩
  · rw [hu] at hd hf
    refine .inl ⟨n, hl, ⟨hd, hf⟩, ?_⟩
    rw [hp, finished, hu]
    rfl
  · rw [hu] at hf
    exact .inr ⟨hf, hp⟩

end Unroll

/-- Of two limits the lower one changes nothing if the run ends below it. Otherwise it leaves
what was reported before it, and a timeout. A bus that cannot be decoded is refused alike. -/
theorem perform_withLimit (b : Testbench σ) (s : Scenario) {low high : Nat} (h : low ≤ high) :
    (∃ fault, AddressMap.ofWidth (Device.addressWidth b.device) = .error fault ∧
      b.perform (s.withLimit low) = .error fault ∧
      b.perform (s.withLimit high) = .error fault) ∨
    ∃ map short shortBench long longBench, Device.addressWidth b.device = map.width ∧
      b.perform (s.withLimit low) = .ok (short, shortBench) ∧
      b.perform (s.withLimit high) = .ok (long, longBench) ∧
      (long.outcome = .done ∧ long.iterations < low → short = long) ∧
      (¬ (long.outcome = .done ∧ long.iterations < low) → long.CutFrom map low short) := by
  cases hw : AddressMap.ofWidth (Device.addressWidth b.device) with
  | error fault =>
    refine .inl ⟨fault, rfl, ?_, ?_⟩ <;>
    · rw [perform, hw]
      rfl
  | ok map =>
    have width := AddressMap.width_of_ofWidth hw
    refine .inr ?_
    rcases perform_withLimit_ends width s high with ⟨n, hl, hd, hp⟩ | ⟨hf, hp⟩ <;>
      rcases perform_withLimit_ends width s low with ⟨n', hl', hd', hp'⟩ | ⟨hf', hp'⟩
    · obtain rfl := hd.unique hd'
      exact ⟨map, _, _, _, _, width, hp', hp, fun _ => rfl, fun hn => absurd ⟨rfl, hl'⟩ hn⟩
    · -- the lower limit comes before the sequences have drained
      have hlow : low ≤ n := Nat.le_of_not_lt fun hlt => by
        have hn := hd.drained
        rw [hf' n hlt] at hn
        cases hn
      refine ⟨map, _, _, _, _, width, hp', hp, fun hn => ?_, fun _ => ?_⟩
      · exact absurd hn.2 (Nat.not_lt.mpr hlow)
      · exact cutFrom_cutOff (by omega) rfl rfl rfl
    · have hn := hd'.drained
      rw [hf n' (Nat.lt_of_lt_of_le hl' h)] at hn
      cases hn
    · refine ⟨map, _, _, _, _, width, hp', hp, by rintro ⟨⟨⟩, -⟩, fun _ => ?_⟩
      exact cutFrom_cutOff (by omega) rfl (completions_cutOff_withLimit high)
        (failures_cutOff_filter h)

/-- A limit of three comes before the answer to the second read of a faulty crossbar, which one
of nine lets through. -/
theorem perform_withLimit_of_three :
    let b := new (Crossbar.initial.withCorruption 1)
    let s := { Scenario.blank "limited" with
      sequences := #v[[some (.read 0x8001), some (.read 0x8002)], [], [none]] }
    3 ≤ 9 ∧
    ((∃ fault, AddressMap.ofWidth (Device.addressWidth b.device) = .error fault ∧
      b.perform (s.withLimit 3) = .error fault ∧ b.perform (s.withLimit 9) = .error fault) ∨
    ∃ map short shortBench long longBench, Device.addressWidth b.device = map.width ∧
      b.perform (s.withLimit 3) = .ok (short, shortBench) ∧
      b.perform (s.withLimit 9) = .ok (long, longBench) ∧
      (long.outcome = .done ∧ long.iterations < 3 → short = long) ∧
      (¬ (long.outcome = .done ∧ long.iterations < 3) → long.CutFrom map 3 short)) :=
  ⟨by decide, perform_withLimit _ _ (by decide)⟩

end Testbench

end CrossbarBench
