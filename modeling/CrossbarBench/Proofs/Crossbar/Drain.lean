import Mathlib.Data.Finset.Lattice.Fold
import Mathlib.Data.Fintype.Basic
import Mathlib.Order.Lattice.Nat
import CrossbarBench.Proofs.Crossbar.Service
import CrossbarBench.Proofs.Crossbar.Waiting
import CrossbarBench.Proofs.Ledger.Audit
import CrossbarBench.Proofs.Run.Unroll

/-! When a run ends. Every port is found drained between the sums of what its slots take at the
soonest and at the latest, so the slowest port decides whether a limit is reached. A single
request is answered within the same bounds from the iteration that issued it. -/

namespace CrossbarBench

namespace Scenario

/-- What the slots of a port take in all. -/
def span (s : Scenario) (cost : Slot → Nat) (c : Port) : Nat := ((s.sequences.get c).map cost).sum

/-- The iteration that finds every port drained, at the soonest. -/
def soonest (s : Scenario) : Nat := 1 + Finset.univ.sup (s.span (Slot.soonest s.delays))

/-- The iteration that finds every port drained, at the latest. -/
def latest (s : Scenario) : Nat := 1 + Finset.univ.sup (s.span (Slot.latest s.delays))

theorem span_lt_latest (s : Scenario) (c : Port) :
    s.span (Slot.latest s.delays) c < s.latest := by
  have h := Finset.le_sup (f := s.span (Slot.latest s.delays)) (Finset.mem_univ c)
  unfold latest
  omega

theorem soonest_le {s : Scenario} {n : Nat} (h : ∀ c, s.span (Slot.soonest s.delays) c < n) :
    s.soonest ≤ n := by
  have hn : 1 ≤ n := Nat.lt_of_le_of_lt (Nat.zero_le _) (h .one)
  have hs : Finset.univ.sup (s.span (Slot.soonest s.delays)) ≤ n - 1 :=
    Finset.sup_le fun c _ => Nat.le_sub_one_of_lt (h c)
  unfold soonest
  omega

end Scenario

/-- Of the completions, the first on a port from iteration `k` on serves a request, no sooner
than the delay allows and no later than after two other requests. -/
structure Completion.InTime (ledger : List Completion) (k : Nat) (port : Port) (q : Request)
    (delay : Nat) (c : Completion) : Prop where
  mem : c ∈ ledger
  serves : c.Serves port q
  soonest : k + 1 + delay ≤ c.iteration
  latest : c.iteration ≤ k + 3 + 3 * delay
  first : ∀ e ∈ ledger, e.port = port → k ≤ e.iteration → c.iteration ≤ e.iteration

theorem Completion.InTime.append {ledger more : List Completion} {k : Nat} {port : Port}
    {q : Request} {delay : Nat} {c : Completion} (h : c.InTime ledger k port q delay)
    (hm : ∀ e ∈ more, c.iteration ≤ e.iteration) : c.InTime (ledger ++ more) k port q delay where
  mem := List.mem_append_left more h.mem
  serves := h.serves
  soonest := h.soonest
  latest := h.latest
  first e he hp hk := by
    rcases List.mem_append.mp he with he | he
    · exact h.first e he hp hk
    · exact hm e he

namespace Run

variable {r : Run Crossbar} {s : Scenario} {n : Nat} {c : Port}

/-! ### Ports -/

/-- After `n` iterations every port is on time: one that is not drained has no more to wait for
than is left of its slots' costs, and one that is drained has not been so too soon. -/
structure OnTime (s : Scenario) (n : Nat) (r : Run Crossbar) : Prop where
  orderly : r.Orderly s.delays
  waiting : ∀ c, (r.requesters.get c).drained = false →
    s.span (Slot.soonest s.delays) c ≤
        n + r.remaining Memory.soonest (Slot.soonest s.delays) c ∧
      n + r.remaining Memory.latest (Slot.latest s.delays) c ≤ s.span (Slot.latest s.delays) c
  drained : ∀ c, (r.requesters.get c).drained = true → s.span (Slot.soonest s.delays) c < n

namespace OnTime

theorem launch {b : Testbench Crossbar} (hb : b.Reached) (s : Scenario) :
    (b.launch .standard s).OnTime s 0 := by
  have hq := b.get_requesters_launch .standard s
  refine ⟨.launch hb.device.fits s, fun c _ => ?_, fun c hd => ?_⟩
  · unfold remaining Scenario.span
    rw [hq c, if_neg Bool.false_ne_true, if_neg Bool.false_ne_true]
    dsimp only
    omega
  · rw [hq c] at hd
    cases hd

theorem iterate (h : r.OnTime s n) : (r.iterate (n + 1)).OnTime s (n + 1) where
  orderly := h.orderly.iterate (n + 1)
  waiting c hd := by
    have hbefore : (r.requesters.get c).drained = false := by
      rw [h.orderly.inStep.landed.requesters_iterate] at hd
      exact Bool.eq_false_iff.mpr fun hb =>
        Bool.eq_false_iff.mp hd ((Requester.drained_next _).mpr (.inl hb))
    have hw := h.waiting c hbefore
    have hi := h.orderly.remaining_iterate (n + 1) hd
    omega
  drained c hd := by
    rw [h.orderly.inStep.landed.requesters_iterate] at hd
    cases hbefore : (r.requesters.get c).drained with
    | true => exact Nat.lt_succ_of_lt (h.drained c hbefore)
    | false =>
      -- found drained in this iteration, with nothing to wait for
      obtain ⟨ha, hs⟩ := ((Requester.drained_next _).mp hd).resolve_left (by simp [hbefore])
      have hw := (h.waiting c hbefore).1
      simp only [remaining, ha, hs, Bool.false_eq_true, ↓reduceIte, List.map_nil,
        List.sum_nil] at hw
      omega

theorem unroll {b : Testbench Crossbar} (hb : b.Reached) (s : Scenario) (n : Nat) :
    (b.unroll .standard s n).OnTime s n :=
  Testbench.unroll_induction (P := fun n r => r.OnTime s n) (.launch hb s)
    (fun _ _ h => h.iterate) n

theorem soonest_le (h : r.OnTime s n) (hd : r.allDrained = true) : s.soonest ≤ n :=
  Scenario.soonest_le fun c => h.drained c (r.allDrained_iff.mp hd c)

theorem lt_latest (h : r.OnTime s n) (hd : r.allDrained = false) : n < s.latest := by
  obtain ⟨c, hc⟩ : ∃ c, (r.requesters.get c).drained = false := by
    by_contra hall
    push Not at hall
    rw [r.allDrained_iff.mpr fun c => by simpa using hall c] at hd
    cases hd
  have hw := (h.waiting c hc).2
  have hl := s.span_lt_latest c
  omega

end OnTime

/-! ### A single request -/

/-- On a port an iteration enters its answer and nothing else. -/
theorem Landed.mem_completions_iterate (h : r.Landed) (k : Nat) {e : Completion}
    (hp : e.port = c) :
    e ∈ (r.iterate k).completions.toList ↔ e ∈ r.completions.toList ∨
      (r.iterate k).bench.device.answered c = true ∧
        e = ((r.iterate k).bench.device.answer c).completion k c := by
  have hon : ∀ ledger : List Completion,
      e ∈ ledger.filter (fun e => e.port = c) ↔ e ∈ ledger := fun ledger => by
    simp [List.mem_filter, hp]
  rw [← hon, h.completions_iterate_on, List.mem_append, hon]
  split <;> rename_i ha <;> simp [ha]

/-- After `n` iterations a port still awaits the answer to a request of iteration `k`. -/
structure Pending (delay k n : Nat) (c : Port) (q : Request) (r : Run Crossbar) : Prop where
  awaiting : (r.requesters.get c).awaiting = true
  carries : (r.bench.device.controllers.get c).Carries c q
  soonest : k + 1 + delay ≤ n + (r.addressed c).soonest c
  latest : n + (r.addressed c).latest c ≤ k + 3 + 3 * delay
  unanswered : ∀ e ∈ r.completions.toList, e.port = c → e.iteration < k

namespace Pending

variable {k : Nat} {q : Request} {delays : Table 4 Nat}

theorem issue (h : r.Orderly delays) (ha : r.Audited .standard k)
    (hq : (r.requesters.get c).raised? = some q) :
    (r.iterate k).Pending (delays.get (AddressMap.standard.peripheral q.address)) k k c q := by
  obtain ⟨hs, hl⟩ := h.wait_raised hq k
  have hanswered : (r.iterate k).bench.device.answered c = false := by
    apply Bool.eq_false_iff.mpr
    intro hx
    have hzero := Memory.soonest_of_answers ((Bool.and_eq_true _ _).mp hx).2
    change ((r.iterate k).addressed c).soonest c = 0 at hzero
    omega
  refine ⟨?_, ?_, by omega, by omega, fun e he hp => ?_⟩
  · rw [h.inStep.landed.requesters_iterate, Requester.awaiting_next, hq, hanswered]
    simp
  · rw [controllers_iterate, Requester.load_raised hq]
    exact (h.inStep.landed.fits c).carries_load q
  · rw [h.inStep.landed.mem_completions_iterate k hp, hanswered] at he
    exact ha.before e (he.resolve_right (by simp))

theorem iterate {delay : Nat} (hp : r.Pending delay k n c q) (h : r.Orderly delays) :
    (r.iterate (n + 1)).Pending delay k (n + 1) c q ∨
      ∃ e : Completion, e.InTime (r.iterate (n + 1)).completions.toList k c q delay := by
  obtain ⟨hs, hl⟩ := h.wait_iterate hp.awaiting (n + 1)
  have hsoonest := hp.soonest
  have hlatest := hp.latest
  have hcarries : ((r.iterate (n + 1)).bench.device.controllers.get c).Carries c q := by
    rw [Orderly.controllers_iterate_awaiting hp.awaiting]
    exact hp.carries
  cases ha : (r.iterate (n + 1)).bench.device.answered c with
  | false =>
    refine .inl ⟨?_, hcarries, by omega, by omega, fun e he hep => ?_⟩
    · rw [h.inStep.landed.requesters_iterate, Requester.next_awaiting hp.awaiting, ha,
        hp.awaiting]
      rfl
    · rw [h.inStep.landed.mem_completions_iterate _ hep, ha] at he
      exact hp.unanswered e (he.resolve_right (by simp)) hep
  | true =>
    have hanswers : ((r.iterate (n + 1)).addressed c).answers c = true :=
      ((Bool.and_eq_true _ _).mp ha).2
    have hzero := Memory.soonest_of_answers hanswers
    have hmem : ((r.iterate (n + 1)).bench.device.answer c).completion (n + 1) c ∈
        (r.iterate (n + 1)).completions.toList :=
      (h.inStep.landed.mem_completions_iterate _ rfl).mpr (.inr ⟨ha, rfl⟩)
    refine .inr ⟨_, hmem, hcarries.serves _, ?_, ?_, fun e he hep hke => ?_⟩
    · change k + 1 + delay ≤ n + 1
      omega
    · change n + 1 ≤ k + 3 + 3 * delay
      omega
    · rw [h.inStep.landed.mem_completions_iterate _ hep] at he
      rcases he with he | ⟨-, rfl⟩
      · have hbefore := hp.unanswered e he hep
        omega
      · exact Nat.le_refl _

end Pending

end Run

namespace Testbench

variable {b : Testbench Crossbar} {s : Scenario} {k n : Nat} {port : Port} {q : Request}

theorem DrainsAt.soonest_le (hb : b.Reached) (h : b.DrainsAt .standard s n) : s.soonest ≤ n :=
  (Run.OnTime.unroll hb s n).soonest_le h.drained

/-- The state before the last iteration was not drained. -/
theorem DrainsAt.le_latest (hb : b.Reached) (h : b.DrainsAt .standard s n) : n ≤ s.latest := by
  cases n with
  | zero => exact Nat.zero_le _
  | succ n => exact (Run.OnTime.unroll hb s n).lt_latest (h.first n (Nat.lt_succ_self n))

theorem exists_drainsAt (hb : b.Reached) (s : Scenario) : ∃ n, b.DrainsAt .standard s n := by
  have hlatest : (b.unroll .standard s s.latest).allDrained = true := by
    by_contra hd
    exact Nat.lt_irrefl _
      ((Run.OnTime.unroll hb s s.latest).lt_latest (Bool.eq_false_iff.mpr hd))
  have hex : ∃ n, (b.unroll .standard s n).allDrained = true := ⟨_, hlatest⟩
  exact ⟨Nat.find hex, Nat.find_spec hex, fun m hm =>
    Bool.eq_false_iff.mpr (Nat.find_min hex hm)⟩

/-- A request that was issued in iteration `k` is pending until it is answered in time. -/
theorem pending_or_inTime (hb : b.Reached) (hq : b.Issues .standard s k port q) (hn : k ≤ n) :
    let delay := s.delays.get (AddressMap.standard.peripheral q.address)
    (b.unroll .standard s n).Pending delay k n port q ∨
      ∃ c : Completion, c.InTime (b.unroll .standard s n).completions.toList k port q delay := by
  induction hn with
  | refl =>
    obtain ⟨m, rfl, hr⟩ := hq
    exact .inl (.issue (Run.OnTime.unroll hb s m).orderly (audited_unroll b .standard s m) hr)
  | @step n hn ih =>
    rcases ih with hp | ⟨c, hc⟩
    · exact hp.iterate (Run.OnTime.unroll hb s n).orderly
    · refine .inr ⟨c, ?_⟩
      rw [unroll, Run.completions_iterate]
      refine hc.append fun e he => ?_
      rw [Device.iteration_of_mem_entries he]
      exact Nat.le_of_lt ((audited_unroll b .standard s n).before c hc.mem)

/-- A request that is not yet answered is awaited, and not for too long. -/
theorem inTime_or_awaiting (hb : b.Reached) (hq : b.Issues .standard s k port q) (hn : k ≤ n) :
    let delay := s.delays.get (AddressMap.standard.peripheral q.address)
    (∃ c : Completion, c.InTime (b.unroll .standard s n).completions.toList k port q delay) ∨
      ((b.unroll .standard s n).requesters.get port).awaiting = true ∧
        n + 1 ≤ k + 3 + 3 * delay ∧
        ∀ c ∈ (b.unroll .standard s n).completions.toList, c.port = port → c.iteration < k := by
  rcases pending_or_inTime hb hq hn with hp | hc
  · have horderly := (Run.OnTime.unroll hb s n).orderly
    have hwait : ((b.unroll .standard s n).addressed port).latest port ≠ 0 := by
      rw [Ne, Memory.latest_eq_zero_iff, horderly.not_answers hp.awaiting]
      exact Bool.false_ne_true
    have hlatest := hp.latest
    exact .inr ⟨hp.awaiting, by omega, hp.unanswered⟩
  · exact .inl hc

/-- A limit past the latest drain lets a run end in time, and one not past the soonest cuts it
off. Every request that is issued is answered in time or else cut off. -/
theorem perform_drains_in_time (hb : b.Reached) (s : Scenario) :
    ∃ report bench, b.perform s = .ok (report, bench) ∧
      (s.latest < s.limit →
        report.outcome = .done ∧ s.soonest ≤ report.iterations ∧ report.iterations ≤ s.latest) ∧
      (s.limit ≤ s.soonest → report.outcome = .aborted) ∧
      ∀ k port q, k ≤ report.executed → b.Issues .standard s k port q →
        let delay := s.delays.get (AddressMap.standard.peripheral q.address)
        (∃ c : Completion, c.InTime report.completions k port q delay) ∨
          report.outcome = .aborted ∧ report.iterations ≤ k + 3 + 3 * delay ∧
            ∀ c ∈ report.completions, c.port = port → c.iteration < k := by
  rcases perform_unroll b.addressWidth_crossbar s with ⟨n, hl, hd, hp⟩ | ⟨hf, hp⟩
  · have ht := Run.OnTime.unroll hb s n
    have hsoonest := hd.soonest_le hb
    refine ⟨_, _, hp, fun _ => ⟨rfl, hsoonest, hd.le_latest hb⟩, by omega,
      fun k port q hk hq => .inl ?_⟩
    refine (inTime_or_awaiting hb hq (n := n) hk).resolve_right fun hopen => ?_
    have hwait := hopen.1
    have hdrained := (Run.allDrained_iff _).mp hd.drained port
    rw [ht.orderly.inStep.not_awaiting_of_drained hdrained] at hwait
    cases hwait
  · refine ⟨_, _, hp, fun h => ?_, fun _ => rfl, fun k port q hk hq => ?_⟩
    · have hlt := (Run.OnTime.unroll hb s (s.limit - 1)).lt_latest (hf _ (by omega))
      omega
    · have hk' := Nat.le_trans hk (Nat.le_of_eq (executed_cutOff b .standard s))
      have hk1 : 1 ≤ k := by
        obtain ⟨m, rfl, -⟩ := hq
        exact Nat.le_add_left 1 m
      rcases inTime_or_awaiting hb hq hk' with hc | ⟨-, hlate, hopen⟩
      · exact .inl hc
      · refine .inr ⟨rfl, ?_, hopen⟩
        change max 1 s.limit ≤ _
        omega

/-- Two ports contend for a slow peripheral, and the third rests before its request. -/
theorem perform_drains_in_time_of_contended :
    let b := (new Crossbar.initial).after
      [.setRequest .two true, .toResponse, .device (.withSpuriousReady .three)]
    let s := { (Scenario.blank "contended").withLimit 30 with
      delays := #v[0, 0, 5, 0]
      sequences := #v[[some (.read 0x8001)], [some (.write 0x8001 0xF 1)],
        [none, some (.read 0x4001)]] }
    b.Reached ∧
    ∃ report bench, b.perform s = .ok (report, bench) ∧
      (s.latest < s.limit →
        report.outcome = .done ∧ s.soonest ≤ report.iterations ∧ report.iterations ≤ s.latest) ∧
      (s.limit ≤ s.soonest → report.outcome = .aborted) ∧
      ∀ k port q, k ≤ report.executed → b.Issues .standard s k port q →
        let delay := s.delays.get (AddressMap.standard.peripheral q.address)
        (∃ c : Completion, c.InTime report.completions k port q delay) ∨
          report.outcome = .aborted ∧ report.iterations ≤ k + 3 + 3 * delay ∧
            ∀ c ∈ report.completions, c.port = port → c.iteration < k :=
  have hb := ⟨Crossbar.initial, _, ⟨[], rfl⟩, rfl⟩
  ⟨hb, perform_drains_in_time hb _⟩

end Testbench

end CrossbarBench
