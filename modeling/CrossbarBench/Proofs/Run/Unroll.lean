import CrossbarBench.Proofs.Run.Loop
import CrossbarBench.Proofs.Run.Response
import CrossbarBench.Proofs.Run.Stimulus

/-! A run as the sequence of its states, which does not depend on the limit. The run ends in
the first state with every sequence drained, or in the one at which the limit cuts it off. So
runs that drain alike end alike, and what a run leaves behind is read off a single state. -/

namespace CrossbarBench

/-- The number of iterations that were carried out. The one that reaches the limit is not. -/
def Report.executed (r : Report) : Nat :=
  if r.outcome = .done then r.iterations else r.iterations - 1

namespace Run

variable {σ : Type} [Device σ]

/-! ### What an iteration adds -/

theorem shadow_iterate (r : Run σ) (k : Nat) :
    (r.iterate k).shadow =
      (Device.entries r.stimulate.bench.toResponse.device k).foldl Shadow.absorb r.shadow := by
  rw [iterate, shadow_respond, stimulate_frame]

theorem completions_iterate (r : Run σ) (k : Nat) :
    (r.iterate k).completions.toList =
      r.completions.toList ++ Device.entries r.stimulate.bench.toResponse.device k := by
  rw [iterate, completions_respond, stimulate_frame]

theorem failures_iterate (r : Run σ) (k : Nat) :
    (r.iterate k).failures.toList = r.failures.toList ++
      (violations r.stimulate.bench.toResponse.device r.stimulate.bench.toResponse.time k
          Port.all ++
        (r.shadow.objections (Device.entries r.stimulate.bench.toResponse.device k)).map
          (Failure.ofObjection r.stimulate.bench.toResponse.time)) := by
  rw [iterate, failures_respond, List.append_assoc, stimulate_frame]

/-- A port is fed, and awaits nothing more once it shows a handshake. -/
theorem requesters_iterate (r : Run σ) (k : Nat) (c : Port) :
    (r.iterate k).requesters.get c =
      if (Device.handshake? r.stimulate.bench.toResponse.device c).isSome then
        { (r.requesters.get c).next with awaiting := false }
      else (r.requesters.get c).next := by
  rw [iterate, requesters_respond, requesters_stimulate]

theorem slots_iterate (r : Run σ) (k : Nat) (c : Port) :
    ((r.iterate k).requesters.get c).slots = (r.requesters.get c).next.slots := by
  rw [requesters_iterate]
  split <;> rfl

theorem drained_iterate (r : Run σ) (k : Nat) (c : Port) :
    ((r.iterate k).requesters.get c).drained = (r.requesters.get c).next.drained := by
  rw [requesters_iterate]
  split <;> rfl

end Run

namespace Testbench

variable {σ : Type} [Device σ]

/-! ### The states of a run -/

/-- The run of a scenario after `n` iterations. -/
def unroll (b : Testbench σ) (map : AddressMap) (s : Scenario) : Nat → Run σ
  | 0 => b.launch map s
  | n + 1 => (b.unroll map s n).iterate (n + 1)

/-- A port takes the request from its sequence and raises it in iteration `k`. -/
def Issues (b : Testbench σ) (map : AddressMap) (s : Scenario)
    (k : Nat) (port : Port) (q : Request) : Prop :=
  ∃ n, k = n + 1 ∧ ((b.unroll map s n).requesters.get port).raised? = some q

/-- What a run leaves behind that ends with iteration `n`. -/
def finished (b : Testbench σ) (map : AddressMap) (s : Scenario) (n : Nat) :
    Report × Testbench σ :=
  ((b.unroll map s n).report s.name .done n, (b.unroll map s n).bench)

/-- What a run leaves behind that is cut off by its limit. -/
def cutOff (b : Testbench σ) (map : AddressMap) (s : Scenario) : Report × Testbench σ :=
  let r := (b.unroll map s (s.limit - 1)).timeOut s.limit (max 1 s.limit)
  (r.report s.name .aborted (max 1 s.limit), r.bench)

variable {b : Testbench σ} {map : AddressMap} {s : Scenario}

theorem executed_cutOff (b : Testbench σ) (map : AddressMap) (s : Scenario) :
    (b.cutOff map s).1.executed = s.limit - 1 := by
  change max 1 s.limit - 1 = s.limit - 1
  omega

/-- The failure that tells of the limit. -/
def timeout (b : Testbench σ) (map : AddressMap) (s : Scenario) : Failure :=
  ⟨.timeout s.limit, (b.unroll map s (s.limit - 1)).bench.time, max 1 s.limit, none⟩

theorem report_cutOff (b : Testbench σ) (map : AddressMap) (s : Scenario) :
    let full := (b.unroll map s (s.limit - 1)).report s.name .aborted (max 1 s.limit)
    (b.cutOff map s).1 = { full with failures := full.failures ++ [b.timeout map s] } := by
  simp [cutOff, Run.report, Run.timeOut, Run.fail, timeout]

theorem failures_cutOff (b : Testbench σ) (map : AddressMap) (s : Scenario) :
    (b.cutOff map s).1.failures =
      (b.unroll map s (s.limit - 1)).failures.toList ++ [b.timeout map s] := by
  rw [report_cutOff]
  rfl

/-- What a new run has and every iteration keeps holds of every state of the run. -/
theorem unroll_induction {P : Nat → Run σ → Prop} (start : P 0 (b.launch map s))
    (step : ∀ n r, P n r → P (n + 1) (r.iterate (n + 1))) : ∀ n, P n (b.unroll map s n)
  | 0 => start
  | n + 1 => step n _ (unroll_induction start step n)

theorem unroll_withLimit (b : Testbench σ) (map : AddressMap) (s : Scenario) (limit n : Nat) :
    b.unroll map (s.withLimit limit) n = b.unroll map s n := by
  induction n with
  | zero => rfl
  | succ n ih => rw [unroll, unroll, ih]

theorem not_allDrained_launch (b : Testbench σ) (map : AddressMap) (s : Scenario) :
    (b.launch map s).allDrained = false := by
  apply Bool.eq_false_iff.mpr
  intro h
  have hd := (Run.allDrained_iff _).mp h Port.one
  rw [get_requesters_launch] at hd
  cases hd

/-! ### Its end -/

/-- Every sequence is drained after `n` iterations, and not before. -/
structure DrainsAt (b : Testbench σ) (map : AddressMap) (s : Scenario) (n : Nat) : Prop where
  drained : (b.unroll map s n).allDrained = true
  first : ∀ m, m < n → (b.unroll map s m).allDrained = false

theorem DrainsAt.unique {m n : Nat} (hm : b.DrainsAt map s m) (hn : b.DrainsAt map s n) :
    m = n := by
  rcases Nat.lt_trichotomy m n with h | rfl | h
  · have hd := hm.drained
    rw [hn.first m h] at hd
    cases hd
  · rfl
  · have hd := hn.drained
    rw [hm.first n h] at hd
    cases hd

/-- A run ends where its sequences drain below the limit, and is cut off where they do not. -/
theorem perform_unroll (width : Device.addressWidth b.device = map.width) (s : Scenario) :
    (∃ n, n < s.limit ∧ b.DrainsAt map s n ∧ b.perform s = .ok (b.finished map s n)) ∨
    ((∀ n, n < s.limit → (b.unroll map s n).allDrained = false) ∧
      b.perform s = .ok (b.cutOff map s)) := by
  rcases perform_ends (s := s) width
    (P := fun k r => ∃ n, k = n + 1 ∧ r = b.unroll map s n ∧
      ∀ m, m ≤ n → (b.unroll map s m).allDrained = false)
    ⟨0, rfl, rfl, fun m hm => by
      rw [Nat.le_zero.mp hm]
      exact not_allDrained_launch b map s⟩
    (by
      rintro _ _ ⟨n, rfl, rfl, h⟩ hn
      refine ⟨n + 1, rfl, rfl, fun m hm => ?_⟩
      rcases Nat.lt_or_eq_of_le hm with hlt | rfl
      · exact h m (Nat.le_of_lt_succ hlt)
      · exact hn) with
    ⟨_, _, -, hl, ⟨n, rfl, rfl, h⟩, hd, hp⟩ | ⟨_, _, hl, ⟨n, rfl, rfl, h⟩, hp⟩
  · exact .inl ⟨n + 1, hl, ⟨hd, fun m hm => h m (Nat.le_of_lt_succ hm)⟩, hp⟩
  · have hn : n = s.limit - 1 := by omega
    refine .inr ⟨fun m hm => h m (by omega), ?_⟩
    rw [hp, cutOff, hl, hn]

/-- Two runs with one limit that drain alike end alike. -/
theorem perform_lockstep {τ : Type} [Device τ] {b' : Testbench τ} {map' : AddressMap}
    {s' : Scenario} (width : Device.addressWidth b.device = map.width)
    (width' : Device.addressWidth b'.device = map'.width) (hlimit : s.limit = s'.limit)
    (h : ∀ n, (b.unroll map s n).allDrained = (b'.unroll map' s' n).allDrained) :
    (∃ n, b.perform s = .ok (b.finished map s n) ∧
      b'.perform s' = .ok (b'.finished map' s' n)) ∨
    (b.perform s = .ok (b.cutOff map s) ∧ b'.perform s' = .ok (b'.cutOff map' s')) := by
  rcases perform_unroll width s with ⟨n, hl, hd, hp⟩ | ⟨hf, hp⟩ <;>
    rcases perform_unroll width' s' with ⟨n', hl', hd', hp'⟩ | ⟨hf', hp'⟩
  · have hn : b.DrainsAt map s n' :=
      ⟨(h n').trans hd'.drained, fun m hm => (h m).trans (hd'.first m hm)⟩
    exact .inl ⟨n, hp, hd.unique hn ▸ hp'⟩
  · have hn := hd.drained
    rw [h, hf' n (hlimit ▸ hl)] at hn
    cases hn
  · have hn := hd'.drained
    rw [← h, hf n' (hlimit ▸ hl')] at hn
    cases hn
  · exact .inr ⟨hp, hp'⟩

end Testbench

end CrossbarBench
