import CrossbarBench.Check.Run

/-! The ways a run ends. What the steps of an iteration preserve, the iteration does. What every
iteration preserves still holds when the last one begins: the one that finds every sequence
drained, or the one that the limit cuts off. -/

namespace CrossbarBench

namespace Run

variable {σ : Type}

/-- The run that an iteration limit cuts off. -/
def timeOut (limit iteration : Nat) (r : Run σ) : Run σ :=
  r.fail ⟨.timeout limit, r.bench.time, iteration, none⟩

/-- What a run reports when it ends. -/
def report (name : String) (outcome : Outcome) (iterations : Nat) (r : Run σ) : Report :=
  ⟨name, outcome, iterations, r.failures.toList, r.completions.toList, r.shadow⟩

theorem allDrained_iff (r : Run σ) :
    r.allDrained = true ↔ ∀ c, (r.requesters.get c).drained = true := by
  rw [allDrained, List.all_eq_true]
  constructor
  · exact fun h c => h _ (Vector.mem_toList_iff.mpr (Vector.getElem_mem c.isLt))
  · intro h q hq
    obtain ⟨i, hi, rfl⟩ := Vector.mem_iff_getElem.mp (Vector.mem_toList_iff.mp hq)
    exact h ⟨i, hi⟩

variable [Device σ]

/-- What is kept by landing in a phase, by feeding a port, by a failure and by retiring a handshake
is kept by an iteration. -/
theorem iterate_keeps {P : Run σ → Prop}
    (toStimulus : ∀ r, P r → P (r.withBench Testbench.toStimulus))
    (feed : ∀ r port, P r → P (r.feed port))
    (toResponse : ∀ r, P r → P (r.withBench Testbench.toResponse))
    (fail : ∀ r f, P r → P (r.fail f))
    (retire : ∀ r k port shake, P r → P (r.retire k port shake))
    {r : Run σ} (h : P r) (k : Nat) : P (r.iterate k) := by
  have hfold : ∀ {f : Run σ → Port → Run σ}, (∀ r port, P r → P (f r port)) →
      ∀ (ports : List Port) r, P r → P (ports.foldl f r) := by
    intro f hf ports
    induction ports with
    | nil => exact fun _ hr => hr
    | cons port ports ih => exact fun r hr => ih _ (hf r port hr)
  have hcheck : ∀ r port, P r → P (checkIdle k r port) := by
    intro r port hr
    unfold checkIdle
    split
    · exact fail r _ hr
    · exact hr
  have hcollect : ∀ r port, P r → P (collect k r port) := by
    intro r port hr
    unfold collect
    split
    · exact hr
    · exact retire r k port _ hr
  have hfed : P r.stimulate := by
    rw [stimulate]
    exact hfold feed Port.all _ (toStimulus r h)
  rw [iterate, respond]
  exact hfold hcollect Port.all _ (hfold hcheck Port.all _ (toResponse _ hfed))

theorem loop_ends {P : Nat → Run σ → Prop} (limit : Nat)
    (step : ∀ k r, P k r → (r.iterate k).allDrained = false → P (k + 1) (r.iterate k)) :
    ∀ (left k : Nat) (r : Run σ), P k r →
      (∃ n r', k ≤ n ∧ n < k + left ∧ P n r' ∧ (r'.iterate n).allDrained = true ∧
        loop limit left k r = (.done, n, r'.iterate n)) ∨
      ∃ r', P (k + left) r' ∧
        loop limit left k r = (.aborted, k + left, r'.timeOut limit (k + left))
  | 0, k, r, h => .inr ⟨r, h, rfl⟩
  | left + 1, k, r, h => by
    by_cases hd : (r.iterate k).allDrained = true
    · exact .inl ⟨k, r, Nat.le_refl k, by omega, h, hd, by simp [loop, hd]⟩
    · have hl : loop limit (left + 1) k r = loop limit left (k + 1) (r.iterate k) := by
        simp [loop, hd]
      rw [hl, show k + (left + 1) = k + 1 + left by omega]
      rcases loop_ends limit step left (k + 1) (r.iterate k) (step k r h (by simpa using hd)) with
        ⟨n, r', hk, hn, hr⟩ | hr
      · exact .inl ⟨n, r', by omega, hn, hr⟩
      · exact .inr hr

end Run

namespace Testbench

variable {σ : Type} [Device σ]

/-- A run before its first iteration, on the bench that it is to be made on. -/
def launch (b : Testbench σ) (map : AddressMap) (s : Scenario) : Run σ :=
  Run.start map (b.prepare s.delays) s.sequences

section Launch
variable (b : Testbench σ) (map : AddressMap) (s : Scenario)

theorem bench_launch : (b.launch map s).bench = b.prepare s.delays := by
  rw [launch, Run.start]

theorem requesters_launch :
    (b.launch map s).requesters = s.sequences.map fun slots => ⟨slots, false, false⟩ := by
  rw [launch, Run.start]

/-- A port starts with its whole sequence, and awaits nothing. -/
theorem get_requesters_launch (c : Port) :
    (b.launch map s).requesters.get c = ⟨s.sequences.get c, false, false⟩ := by
  rw [requesters_launch, Table.get_map]

/-- Nothing is logged before the first iteration. -/
theorem records_launch : (b.launch map s).bench.records = b.records := by
  rw [bench_launch, prepare, records_reset]
  rfl

theorem shadow_launch : (b.launch map s).shadow = Shadow.fresh map := by
  rw [launch, Run.start]

theorem failures_launch : (b.launch map s).failures = #[] := by
  rw [launch, Run.start]

theorem completions_launch : (b.launch map s).completions = #[] := by
  rw [launch, Run.start]

end Launch

/-- A run is the loop from its launch, on a bus that can be decoded. -/
theorem perform_eq (b : Testbench σ) (s : Scenario) :
    b.perform s = (AddressMap.ofWidth (Device.addressWidth b.device)).map fun map =>
      let l := Run.loop s.limit (s.limit - 1) 1 (b.launch map s)
      (l.2.2.report s.name l.1 l.2.1, l.2.2.bench) := by
  unfold perform
  cases AddressMap.ofWidth (Device.addressWidth b.device) <;> rfl

/-- On a bus that can be decoded a run always ends with a report. -/
theorem perform_ends {P : Nat → Run σ → Prop} {b : Testbench σ} {s : Scenario} {map : AddressMap}
    (width : Device.addressWidth b.device = map.width) (start : P 1 (b.launch map s))
    (step : ∀ k r, P k r → (r.iterate k).allDrained = false → P (k + 1) (r.iterate k)) :
    (∃ n r, 1 ≤ n ∧ n < s.limit ∧ P n r ∧ (r.iterate n).allDrained = true ∧
      b.perform s = .ok ((r.iterate n).report s.name .done n, (r.iterate n).bench)) ∨
    ∃ n r, n = max 1 s.limit ∧ P n r ∧
      b.perform s =
        .ok ((r.timeOut s.limit n).report s.name .aborted n, (r.timeOut s.limit n).bench) := by
  have hp : b.perform s =
      let l := Run.loop s.limit (s.limit - 1) 1 (b.launch map s)
      .ok (l.2.2.report s.name l.1 l.2.1, l.2.2.bench) := by
    rw [perform_eq, width, AddressMap.ofWidth_width]
    rfl
  rcases Run.loop_ends s.limit step (s.limit - 1) 1 _ start with
    ⟨n, r, h1, hn, hP, hd, hl⟩ | ⟨r, hP, hl⟩
  · exact .inl ⟨n, r, h1, by omega, hP, hd, by rw [hp, hl]⟩
  · exact .inr ⟨1 + (s.limit - 1), r, by omega, hP, by rw [hp, hl]⟩

end Testbench

end CrossbarBench
