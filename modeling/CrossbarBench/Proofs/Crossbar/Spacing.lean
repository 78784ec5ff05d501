import CrossbarBench.Proofs.Crossbar.Waiting
import CrossbarBench.Proofs.Run.Order

/-! Services of one peripheral keep a distance, and so do services of one port. A grant has to be
waited for before it is answered, and it is given no sooner than the iteration after the answer
before it. So the entries of an iteration are on different peripherals, and the ports of a run
may be served in any order. -/

namespace CrossbarBench

/-- The later of two completions on one peripheral or on one port leaves time for the delay of
its own peripheral. -/
structure Completion.Spaced (delays : Table 4 Nat) (e f : Completion) : Prop where
  peripheral : AddressMap.standard.peripheral e.address = AddressMap.standard.peripheral f.address →
    e.iteration + delays.get (AddressMap.standard.peripheral f.address) + 1 ≤ f.iteration
  port : e.port = f.port →
    e.iteration + delays.get (AddressMap.standard.peripheral f.address) + 2 ≤ f.iteration

/-- The answers of one moment are on different ports and on different peripherals. -/
theorem Crossbar.answers_apart (x : Crossbar) (k : Nat) :
    ((Port.all.filter x.answered).map fun c => (x.answer c).completion k c).Pairwise
      fun e f => e.port ≠ f.port ∧ e.Apart .standard f := by
  have hne : Port.all.Pairwise (· ≠ ·) := by decide
  rw [List.pairwise_map, List.pairwise_filter]
  exact hne.imp fun hcd hc hd => ⟨hcd, fun ht => hcd (answered_inj hc hd ht)⟩

namespace Run

variable {r : Run Crossbar} {delays : Table 4 Nat} {n : Nat} {c : Port} {e : Completion}

/-- After `n` iterations the completions are spaced, and so will the next ones be. A memory that
was once served is not waited for longer than since then, unless it answers. A port that was once
served has still to wait for what it awaits. -/
structure Spaced (delays : Table 4 Nat) (n : Nat) (r : Run Crossbar) : Prop where
  orderly : r.Orderly delays
  past : ∀ e ∈ r.completions.toList, e.iteration ≤ n
  spaced : r.completions.toList.Pairwise (Completion.Spaced delays)
  served : ∀ e ∈ r.completions.toList, ∀ c,
    let m := r.bench.device.memories.get (AddressMap.standard.peripheral e.address)
    m.grant = some c → e.iteration + m.waited < n ∨ m.delay ≤ m.waited
  awaited : ∀ e ∈ r.completions.toList, (r.requesters.get e.port).awaiting = true →
    e.iteration + (r.addressed e.port).delay + 2 ≤ n + (r.addressed e.port).soonest e.port

namespace Spaced

theorem launch {b : Testbench Crossbar} (hb : b.Reached) (s : Scenario) :
    (b.launch .standard s).Spaced s.delays 0 where
  orderly := .launch hb.device.fits s
  past := by rw [Testbench.completions_launch]; nofun
  spaced := by rw [Testbench.completions_launch]; exact .nil
  served := by rw [Testbench.completions_launch]; nofun
  awaited := by rw [Testbench.completions_launch]; nofun

/-! ### The next iteration -/

/-- What a memory was served before is longer ago than the next grant has been waited for. -/
theorem served_iterate (h : r.Spaced delays n) (he : e ∈ r.completions.toList)
    (hg : ((r.iterate (n + 1)).bench.device.memories.get
      (AddressMap.standard.peripheral e.address)).grant = some c) :
    e.iteration + ((r.iterate (n + 1)).bench.device.memories.get
      (AddressMap.standard.peripheral e.address)).waited ≤ n := by
  have hpast := h.past e he
  rw [h.orderly.memory_iterate] at hg ⊢
  rcases Memory.waited_edge hg with ⟨hold, hlt, hw⟩ | hw
  · have hs := h.served e he c hold
    omega
  · omega

/-- What a port raises after it was served is not answered before its delay is over. -/
theorem awaited_iterate (h : r.Spaced delays n) (he : e ∈ r.completions.toList) :
    e.iteration + ((r.iterate (n + 1)).addressed e.port).delay + 2 ≤
      n + 1 + ((r.iterate (n + 1)).addressed e.port).soonest e.port := by
  have hk := h.orderly.iterate (n + 1)
  cases ha : (r.requesters.get e.port).awaiting with
  | true =>
    have hold := h.awaited e he ha
    have hw := (h.orderly.wait_iterate ha (n + 1)).1
    have hd : ((r.iterate (n + 1)).addressed e.port).delay = (r.addressed e.port).delay := by
      rw [hk.delay_addressed, h.orderly.delay_addressed, Orderly.controllers_iterate_awaiting ha]
    omega
  | false =>
    -- nothing was raised, so nothing is granted yet
    have hg : ((r.iterate (n + 1)).addressed e.port).grant ≠ some e.port := fun hg => by
      rw [(h.orderly.inStep.granted_iterate hg).1] at ha
      cases ha
    have hpast := h.past e he
    rw [Memory.soonest_waiting hg]
    omega

/-- So the next answer keeps its distance. -/
theorem spaced_answer (h : r.Spaced delays n) (he : e ∈ r.completions.toList)
    (ha : (r.iterate (n + 1)).bench.device.answered c = true) :
    e.Spaced delays (((r.iterate (n + 1)).bench.device.answer c).completion (n + 1) c) := by
  have hk := h.orderly.iterate (n + 1)
  obtain ⟨-, hg, hd⟩ := (Crossbar.answered_iff _ c).mp ha
  rw [hk.delay] at hd
  constructor
  · intro hp
    change AddressMap.standard.peripheral e.address =
      ((r.iterate (n + 1)).bench.device.controllers.get c).target.1 at hp
    rw [← hp] at hg hd
    have hs := h.served_iterate he hg
    change e.iteration + delays.get (((r.iterate (n + 1)).bench.device.controllers.get c).target.1)
      + 1 ≤ n + 1
    rw [← hp]
    omega
  · rintro rfl
    have hw := h.awaited_iterate he
    have hzero : ((r.iterate (n + 1)).addressed e.port).soonest e.port = 0 :=
      Memory.soonest_of_answers ((Bool.and_eq_true _ _).mp ha).2
    rw [hk.delay_addressed] at hw
    change e.iteration + delays.get
      (((r.iterate (n + 1)).bench.device.controllers.get e.port).target.1) + 2 ≤ n + 1
    omega

theorem completions_iterate (h : r.Spaced delays n) :
    (r.iterate (n + 1)).completions.toList = r.completions.toList ++
      (Port.all.filter (r.iterate (n + 1)).bench.device.answered).map fun c =>
        ((r.iterate (n + 1)).bench.device.answer c).completion (n + 1) c := by
  rw [Run.completions_iterate, h.orderly.inStep.landed.entries_iterate]

/-- A completion after the next iteration is one from before it or an answer of its own. -/
theorem mem_completions_iterate (h : r.Spaced delays n) :
    e ∈ (r.iterate (n + 1)).completions.toList ↔ e ∈ r.completions.toList ∨
      ∃ c, (r.iterate (n + 1)).bench.device.answered c = true ∧
        ((r.iterate (n + 1)).bench.device.answer c).completion (n + 1) c = e := by
  rw [h.completions_iterate, List.mem_append, List.mem_map]
  simp only [List.mem_filter, Port.mem_all, true_and]

theorem iterate (h : r.Spaced delays n) : (r.iterate (n + 1)).Spaced delays (n + 1) where
  orderly := h.orderly.iterate (n + 1)
  past e he := by
    rcases h.mem_completions_iterate.mp he with he | ⟨c, -, rfl⟩
    · exact Nat.le_succ_of_le (h.past e he)
    · exact Nat.le_refl _
  spaced := by
    rw [h.completions_iterate, List.pairwise_append]
    refine ⟨h.spaced, ?_, fun e he f hf => ?_⟩
    · exact (Crossbar.answers_apart _ _).imp fun hef =>
        ⟨fun hp => absurd hp hef.2, fun hp => absurd hp hef.1⟩
    · obtain ⟨c, hc, rfl⟩ := List.mem_map.mp hf
      exact h.spaced_answer he (List.mem_filter.mp hc).2
  served e he c hg := by
    rcases h.mem_completions_iterate.mp he with he | ⟨d, ha, rfl⟩
    · exact .inl (Nat.lt_succ_of_le (h.served_iterate he hg))
    · exact .inr ((Crossbar.answered_iff _ d).mp ha).2.2
  awaited e he hw := by
    rcases h.mem_completions_iterate.mp he with he | ⟨d, ha, rfl⟩
    · exact h.awaited_iterate he
    · -- an answered port awaits nothing
      have hno := (h.orderly.inStep.iterate (n + 1)).awaiting d
      rw [ha, Bool.not_true, Bool.and_false] at hno
      exact absurd hw (Bool.eq_false_iff.mp hno)

end Spaced

/-- Between iterations in step the next one makes its entries on different peripherals. -/
theorem InStep.parted (h : r.InStep) (hs : r.shadow.map = .standard) (k : Nat) : r.Parted k where
  map := hs
  apart := by
    rw [h.landed.entries_iterate]
    exact (Crossbar.answers_apart _ k).imp fun hef => hef.2

end Run

namespace Testbench

/-- In every run two completions on one peripheral are more than its delay apart, and the later
one of two on a port leaves an iteration more. Those of one iteration are on different
peripherals, so whichever order its ports are served in, the run finds the same and ends with the
same shadow memory. -/
theorem perform_spaces_services {b : Testbench Crossbar} (hb : b.Reached) (s : Scenario) :
    ∃ report bench, b.perform s = .ok (report, bench) ∧
      report.completions.Pairwise (Completion.Spaced s.delays) ∧
      (report.completions.Pairwise fun e f =>
        e.iteration = f.iteration → e.Apart .standard f) ∧
      ∀ order : Nat → List Port, (∀ k, (order k).Perm Port.all) →
        ∃ other bench', b.performIn order s = .ok (other, bench') ∧ report.Reordered other := by
  obtain ⟨report, bench, hp, hspaced⟩ : ∃ report bench, b.perform s = .ok (report, bench) ∧
      report.completions.Pairwise (Completion.Spaced s.delays) := by
    rcases perform_ends (P := fun k r => ∃ n, k = n + 1 ∧ r.Spaced s.delays n) (s := s)
      b.addressWidth_crossbar ⟨0, rfl, .launch hb s⟩
      (by rintro _ r ⟨n, rfl, h⟩ -; exact ⟨n + 1, rfl, h.iterate⟩) with
      ⟨_, r, -, -, ⟨n, rfl, h⟩, -, hp⟩ | ⟨_, r, -, ⟨n, rfl, h⟩, hp⟩
    · exact ⟨_, _, hp, h.iterate.spaced⟩
    · exact ⟨_, _, hp, h.spaced⟩
  refine ⟨report, bench, hp, hspaced, hspaced.imp fun hef hk ht => ?_, fun order ho => ?_⟩
  · have hdistance := hef.peripheral ht
    omega
  · obtain ⟨_, _, other, bench', hp', ho', hr⟩ :=
      performIn_reordered (P := fun _ r => r.InStep ∧ r.shadow.map = .standard) (s := s)
        b.addressWidth_crossbar ho (fun k r h => h.1.parted h.2 k)
        ⟨.launch hb.device.fits .standard s, by rw [shadow_launch]; rfl⟩
        (fun k r h => ⟨h.1.iterate k, by rw [Run.shadow_iterate, Shadow.map_foldl_absorb, h.2]⟩)
    rw [hp] at hp'
    cases hp'
    exact ⟨other, bench', ho', hr⟩

/-- Two ports contend for a slow peripheral, one of them twice, while the third reads from a fast
one. -/
theorem perform_spaces_services_of_contended :
    let b := (new (Crossbar.initial.withCorruption 0xFF)).after
      [.setRequest .two true, .toResponse, .device (.withSpuriousReady .three)]
    let s := { Scenario.blank "contended" with
      delays := #v[0, 0, 2, 0]
      sequences := #v[[some (.read 0x8001), some (.read 0x8001)],
        [some (.write 0x8001 0xF 1)], [some (.read 0x4001), none]] }
    b.Reached ∧
    ((b.perform s).map fun r => r.1.completions.map fun c => (c.iteration, c.port)) =
      .ok [(2, .three), (4, .one), (7, .two), (10, .one)] ∧
    ∃ report bench, b.perform s = .ok (report, bench) ∧
      report.completions.Pairwise (Completion.Spaced s.delays) ∧
      (report.completions.Pairwise fun e f =>
        e.iteration = f.iteration → e.Apart .standard f) ∧
      ∀ order : Nat → List Port, (∀ k, (order k).Perm Port.all) →
        ∃ other bench', b.performIn order s = .ok (other, bench') ∧ report.Reordered other :=
  have hb := ⟨Crossbar.initial.withCorruption 0xFF, _, ⟨[.withCorruption 0xFF], rfl⟩, rfl⟩
  ⟨hb, by decide +kernel, perform_spaces_services hb _⟩

end Testbench

end CrossbarBench
