import CrossbarBench.Proofs.Bench.Recorder
import CrossbarBench.Proofs.Ledger.Ownership
import CrossbarBench.Proofs.Ledger.Truncation

/-! Idle slots at the end of the sequences. A port that takes an idle slot lowers its request, as
one does that has no slot left, so a run with idle slots appended makes the same calls and sees
the same signals as the run without them. It only takes longer to find its sequences empty: on
every port by as many iterations as slots were appended. What a device answers in the meantime is
found on top of the rest, but a crossbar that is asked for nothing answers nothing. -/

namespace CrossbarBench

/-- The greatest value of any port. -/
def Port.greatest (f : Port → Nat) : Nat := max (f .one) (max (f .two) (f .three))

theorem Port.greatest_le_iff (f : Port → Nat) (n : Nat) : greatest f ≤ n ↔ ∀ c, f c ≤ n := by
  rw [greatest, Nat.max_le, Nat.max_le]
  constructor
  · rintro ⟨h1, h2, h3⟩ c
    rcases eq_one_or_two_or_three c with rfl | rfl | rfl <;> assumption
  · exact fun h => ⟨h .one, h .two, h .three⟩

/-- The scenario with idle slots appended to the sequences. -/
def Scenario.padded (s : Scenario) (pad : Port → Nat) : Scenario :=
  { s with sequences := Vector.ofFn fun c => s.sequences.get c ++ Slot.idle (pad c) }

namespace Requester

/-- The requester `q'` has `pad` idle slots more than `q`, and `spent` times it was fed where `q`
was found drained. -/
structure Padded (pad spent : Nat) (q q' : Requester) : Prop where
  slots : q'.slots = q.slots ++ Slot.idle (pad - spent)
  awaiting : q'.awaiting = q.awaiting
  drained : q'.drained = true ↔ pad < spent
  unspent : q.drained = false → spent = 0
  empty : q.drained = true → q.slots = [] ∧ q.awaiting = false

namespace Padded

variable {pad spent : Nat} {q q' : Requester}

/-- An idle slot raises nothing, and neither does an empty sequence. -/
theorem raised? (h : q.Padded pad spent q') : q'.raised? = q.raised? := by
  unfold Requester.raised?
  rw [h.awaiting, h.slots]
  cases q.slots with
  | nil => cases pad - spent <;> rfl
  | cons slot rest => rfl

theorem actOn {σ : Type} [Device σ] (h : q.Padded pad spent q') (port : Port) (d : σ) :
    q'.actOn port d = q.actOn port d := by
  rw [Requester.actOn, Requester.actOn, h.awaiting, h.raised?]

theorem not_drained_of_slots (h : q.Padded pad spent q') (hs : q.slots ≠ []) :
    q.drained = false :=
  Bool.eq_false_iff.mpr fun hd => hs (h.empty hd).1

/-- Where no slot is left, an idle slot is taken of those that were appended. -/
theorem next_of_empty (h : q.Padded pad spent q') (ha : q.awaiting = false)
    (hs : q.slots = []) : q.next.Padded pad (spent + 1) q'.next := by
  have ha' := h.awaiting.trans ha
  have hs' := h.slots
  have hd := h.drained
  rw [hs, List.nil_append] at hs'
  rw [next_empty ha hs]
  cases hleft : pad - spent with
  | zero =>
    rw [hleft] at hs'
    rw [next_empty ha' hs']
    refine ⟨?_, h.awaiting, by simp; omega, nofun, fun _ => ⟨hs, ha⟩⟩
    rw [hs, hs', show pad - (spent + 1) = 0 by omega]
    rfl
  | succ left =>
    rw [hleft] at hs'
    rw [next_idle ha' hs']
    refine ⟨?_, h.awaiting, ?_, nofun, fun _ => ⟨hs, ha⟩⟩
    · rw [hs, show pad - (spent + 1) = left by omega]
      rfl
    · rw [hd]
      omega

theorem next (h : q.Padded pad spent q') :
    q.next.Padded pad (if q.next.drained then spent + 1 else spent) q'.next := by
  cases ha : q.awaiting with
  | true =>
    have hd : q.drained = false := Bool.eq_false_iff.mpr fun hd => by
      rw [(h.empty hd).2] at ha
      cases ha
    rw [next_awaiting ha, next_awaiting (h.awaiting.trans ha), hd, if_neg Bool.false_ne_true]
    exact h
  | false =>
    have ha' := h.awaiting.trans ha
    have hs' := h.slots
    rcases hs : q.slots with _ | ⟨_ | request, rest⟩
    · have hn := h.next_of_empty ha hs
      rwa [if_pos (by rw [next_empty ha hs])]
    · have hd := h.not_drained_of_slots (by simp [hs])
      rw [hs] at hs'
      rw [next_idle ha hs, next_idle ha' hs']
      simp only [hd, Bool.false_eq_true, ↓reduceIte]
      exact ⟨rfl, h.awaiting, h.drained, fun _ => h.unspent hd, nofun⟩
    · have hd := h.not_drained_of_slots (by simp [hs])
      rw [hs] at hs'
      rw [next_request ha hs, next_request ha' hs']
      simp only [hd, Bool.false_eq_true, ↓reduceIte]
      exact ⟨rfl, rfl, h.drained, fun _ => h.unspent hd, nofun⟩

theorem acknowledge (h : q.Padded pad spent q') :
    ({ q with awaiting := false } : Requester).Padded pad spent { q' with awaiting := false } :=
  ⟨h.slots, rfl, h.drained, h.unspent, fun hd => ⟨(h.empty hd).1, rfl⟩⟩

end Padded

end Requester

namespace Run

variable {σ : Type} [Device σ]

/-- Two runs that differ in the idle slots that are left at the end of their sequences, and in
their logs. -/
structure Padded (pad spent : Port → Nat) (r r' : Run σ) : Prop where
  device : r'.bench.device = r.bench.device
  time : r'.bench.time = r.bench.time
  shadow : r'.shadow = r.shadow
  completions : r'.completions.toList = r.completions.toList
  failures : r'.failures.toList = r.failures.toList
  requesters : ∀ c, (r.requesters.get c).Padded (pad c) (spent c) (r'.requesters.get c)

namespace Padded

variable {pad spent : Port → Nat} {r r' : Run σ}

theorem toResponse_stimulate (h : r.Padded pad spent r') :
    r'.stimulate.bench.toResponse.device = r.stimulate.bench.toResponse.device ∧
      r'.stimulate.bench.toResponse.time = r.stimulate.bench.toResponse.time := by
  have hs := Testbench.toStimulus_congr h.device h.time
  have hact : (fun d port => (r'.requesters.get port).actOn port d) =
      fun (d : σ) port => (r.requesters.get port).actOn port d := by
    funext d port
    exact (h.requesters port).actOn port d
  refine Testbench.toResponse_congr ?_ ?_
  · rw [device_stimulate, device_stimulate, hs.1, hact]
  · rw [time_stimulate, time_stimulate, hs.2]

theorem iterate (h : r.Padded pad spent r') (k : Nat) :
    (r.iterate k).Padded pad
      (fun c => if ((r.iterate k).requesters.get c).drained then spent c + 1 else spent c)
      (r'.iterate k) := by
  obtain ⟨hd, ht⟩ := h.toResponse_stimulate
  constructor
  · rw [device_iterate, device_iterate, hd]
  · rw [bench_iterate r', bench_iterate r]
    exact ht
  · rw [shadow_iterate, shadow_iterate, hd, h.shadow]
  · rw [completions_iterate, completions_iterate, hd, h.completions]
  · rw [failures_iterate, failures_iterate, hd, ht, h.shadow, h.failures]
  · intro c
    have hn := (h.requesters c).next
    rw [← drained_iterate r k c] at hn
    rw [requesters_iterate r', hd]
    by_cases hs : (Device.handshake? r.stimulate.bench.toResponse.device c).isSome
    · rw [if_pos hs]
      have hr : (r.iterate k).requesters.get c =
          { (r.requesters.get c).next with awaiting := false } := by
        rw [requesters_iterate, if_pos hs]
      have ha := hn.acknowledge
      rwa [← hr] at ha
    · rw [if_neg hs]
      have hr : (r.iterate k).requesters.get c = (r.requesters.get c).next := by
        rw [requesters_iterate, if_neg hs]
      rwa [← hr] at hn

end Padded

end Run

namespace Testbench

/-! ### How long a padded run takes -/

section AnyDevice
variable {σ : Type} [Device σ] {b : Testbench σ} {map : AddressMap} {s : Scenario} {c : Port}
  {k n : Nat}

/-- Iteration `k` is the first that finds a port with nothing awaited and its sequence empty. -/
structure FoundEmptyAt (b : Testbench σ) (map : AddressMap) (s : Scenario) (k : Nat) (c : Port) :
    Prop where
  drained : ((b.unroll map s k).requesters.get c).drained = true
  first : ∀ m, m < k → ((b.unroll map s m).requesters.get c).drained = false

/-- How many of the first `n` iterations have found a port so. -/
def emptyFeeds (b : Testbench σ) (map : AddressMap) (s : Scenario) (c : Port) : Nat → Nat
  | 0 => 0
  | n + 1 => if ((b.unroll map s (n + 1)).requesters.get c).drained then
      b.emptyFeeds map s c n + 1 else b.emptyFeeds map s c n

theorem drained_mono (h : ((b.unroll map s k).requesters.get c).drained = true) (hn : k ≤ n) :
    ((b.unroll map s n).requesters.get c).drained = true := by
  induction hn with
  | refl => exact h
  | step _ ih =>
    rw [unroll, Run.drained_iterate, Requester.drained_next]
    exact .inl ih

theorem FoundEmptyAt.emptyFeeds (h : b.FoundEmptyAt map s k c) (n : Nat) :
    b.emptyFeeds map s c n = n + 1 - k := by
  have hk : k ≠ 0 := by
    rintro rfl
    have hd := h.drained
    rw [unroll, get_requesters_launch] at hd
    cases hd
  induction n with
  | zero =>
    rw [Testbench.emptyFeeds]
    omega
  | succ n ih =>
    rw [Testbench.emptyFeeds, ih]
    by_cases hn : k ≤ n + 1
    · rw [if_pos (drained_mono h.drained hn)]
      omega
    · rw [if_neg (by simp [h.first (n + 1) (by omega)])]
      omega

/-- A run with idle slots appended goes along with the run without them. -/
theorem padded_unroll (b : Testbench σ) (map : AddressMap) (s : Scenario) (pad : Port → Nat)
    (n : Nat) :
    (b.unroll map s n).Padded pad (fun c => b.emptyFeeds map s c n)
      (b.unroll map (s.padded pad) n) := by
  induction n with
  | zero =>
    refine ⟨rfl, rfl, rfl, rfl, rfl, fun c => ?_⟩
    rw [unroll, unroll, get_requesters_launch, get_requesters_launch]
    exact ⟨Table.get_ofFn _ c, rfl, by simp [emptyFeeds], fun _ => rfl,
      fun hd => absurd hd Bool.false_ne_true⟩
  | succ n ih => exact ih.iterate (n + 1)

/-- It finds a port drained as many iterations later as slots were appended. -/
theorem drained_padded_iff (h : b.FoundEmptyAt map s k c) (pad : Port → Nat) (n : Nat) :
    ((b.unroll map (s.padded pad) n).requesters.get c).drained = true ↔ k + pad c ≤ n := by
  rw [((padded_unroll b map s pad n).requesters c).drained, h.emptyFeeds]
  omega

theorem allDrained_padded_iff {found : Port → Nat} (h : ∀ c, b.FoundEmptyAt map s (found c) c)
    (pad : Port → Nat) (n : Nat) :
    (b.unroll map (s.padded pad) n).allDrained = true ↔
      Port.greatest (fun c => found c + pad c) ≤ n := by
  rw [Run.allDrained_iff, Port.greatest_le_iff]
  exact forall_congr' fun c => drained_padded_iff (h c) pad n

/-- Where a padded run has drained, the run without the padding has too. -/
theorem allDrained_of_padded {pad : Port → Nat}
    (h : (b.unroll map (s.padded pad) n).allDrained = true) :
    (b.unroll map s n).allDrained = true := by
  rw [Run.allDrained_iff] at h ⊢
  intro c
  have hp := (padded_unroll b map s pad n).requesters c
  have hlt := hp.drained.mp (h c)
  by_contra hd
  rw [hp.unspent (Bool.eq_false_iff.mpr hd)] at hlt
  cases hlt

/-! ### Reports -/

/-- Where a padded run and the run without the padding both end, the padded one ends later. -/
theorem exists_ends (width : Device.addressWidth b.device = map.width) {pad : Port → Nat}
    {limit : Nat} {report report' : Report} {bench bench' : Testbench σ}
    (hp : b.perform s = .ok (report, bench))
    (hp' : b.perform ((s.padded pad).withLimit limit) = .ok (report', bench'))
    (hd : report.outcome = .done) (hd' : report'.outcome = .done) :
    ∃ n n', n ≤ n' ∧ (b.unroll map s n).allDrained = true ∧
      (report, bench) = b.finished map s n ∧
      (report', bench') = b.finished map (s.padded pad) n' := by
  rcases perform_unroll width s with ⟨n, -, hn, he⟩ | ⟨-, he⟩
  · rcases perform_withLimit_ends width (s.padded pad) limit with ⟨n', -, hn', he'⟩ | ⟨-, he'⟩
    · rw [hp] at he
      rw [hp'] at he'
      refine ⟨n, n', ?_, hn.drained, Except.ok.inj he, Except.ok.inj he'⟩
      refine Nat.le_of_not_lt fun hlt => ?_
      have hdrained := allDrained_of_padded hn'.drained
      rw [hn.first n' hlt] at hdrained
      cases hdrained
    · rw [hp'] at he'
      cases he'
      cases hd'
  · rw [hp] at he
    cases he
    cases hd

/-- A run with idle slots appended, with its own limit and report, beside the run without them.
After as many iterations the device has been given the same calls, and in every response phase it
shows the same. What the shorter run reports the longer one does, up to where that ends. It ends
with the port that is found empty last, each as many iterations later as it has idle slots. -/
structure Neutral (b : Testbench σ) (map : AddressMap) (s : Scenario) (pad : Port → Nat)
    (limit : Nat) (report report' : Report) : Prop where
  calls : ∀ n, (b.recording.unroll map (s.padded pad) n).bench.device.calls =
    (b.recording.unroll map s n).bench.device.calls
  signals : ∀ n port signal,
    Device.sense (b.unroll map (s.padded pad) n).stimulate.bench.toResponse.device port signal =
      Device.sense (b.unroll map s n).stimulate.bench.toResponse.device port signal
  completions : report.outcome = .done → report'.outcome = .done →
    (report'.completions.filter fun c => c.iteration ≤ report.iterations) = report.completions
  failures : report.outcome = .done → report'.outcome = .done →
    (report'.failures.filter fun f => f.iteration ≤ report.iterations) = report.failures
  ends : ∀ found : Port → Nat, (∀ c, b.FoundEmptyAt map s (found c) c) →
    let n := Port.greatest fun c => found c + pad c
    (n < limit → report'.outcome = .done ∧ report'.iterations = n) ∧
      (limit ≤ n → report'.outcome = .aborted)

theorem neutral_of_performs (width : Device.addressWidth b.device = map.width)
    {pad : Port → Nat} {limit : Nat} {report report' : Report} {bench bench' : Testbench σ}
    (hp : b.perform s = .ok (report, bench))
    (hp' : b.perform ((s.padded pad).withLimit limit) = .ok (report', bench')) :
    b.Neutral map s pad limit report report' where
  calls n := congrArg Recorder.calls (padded_unroll b.recording map s pad n).device
  signals n port signal := by rw [(padded_unroll b map s pad n).toResponse_stimulate.1]
  completions hd hd' := by
    obtain ⟨n, n', hn, -, he, he'⟩ := exists_ends width hp hp' hd hd'
    obtain ⟨rfl, -⟩ := Prod.mk.inj he
    obtain ⟨rfl, -⟩ := Prod.mk.inj he'
    change ((b.unroll map (s.padded pad) n').completions.toList.filter fun c => c.iteration ≤ n) =
      (b.unroll map s n).completions.toList
    rw [(padded_unroll b map s pad n').completions]
    have hlast : n + 1 - 1 ≤ n' := hn
    simpa only [Nat.lt_succ_iff, Nat.add_sub_cancel] using completions_unroll_filter hlast
  failures hd hd' := by
    obtain ⟨n, n', hn, -, he, he'⟩ := exists_ends width hp hp' hd hd'
    obtain ⟨rfl, -⟩ := Prod.mk.inj he
    obtain ⟨rfl, -⟩ := Prod.mk.inj he'
    change ((b.unroll map (s.padded pad) n').failures.toList.filter fun f => f.iteration ≤ n) =
      (b.unroll map s n).failures.toList
    rw [(padded_unroll b map s pad n').failures]
    have hlast : n + 1 - 1 ≤ n' := hn
    simpa only [Nat.lt_succ_iff, Nat.add_sub_cancel] using failures_unroll_filter hlast
  ends found hf := by
    have hdrained := allDrained_padded_iff hf pad
    rcases perform_withLimit_ends width (s.padded pad) limit with ⟨n, hl, hn, he⟩ | ⟨hn, he⟩
    · rw [hp'] at he
      obtain ⟨rfl, -⟩ := Prod.mk.inj (Except.ok.inj he)
      have hle := (hdrained n).mp hn.drained
      have hge : n ≤ Port.greatest fun c => found c + pad c := by
        refine Nat.le_of_not_lt fun hlt => ?_
        have hd := (hdrained _).mpr (Nat.le_refl _)
        rw [hn.first _ hlt] at hd
        cases hd
      refine ⟨fun _ => ⟨rfl, Nat.le_antisymm hge hle⟩, fun hlimit => ?_⟩
      omega
    · rw [hp'] at he
      obtain ⟨rfl, -⟩ := Prod.mk.inj (Except.ok.inj he)
      refine ⟨fun hlt => ?_, fun _ => rfl⟩
      have hd := (hdrained _).mpr (Nat.le_refl _)
      rw [hn _ hlt] at hd
      cases hd

end AnyDevice

end Testbench

/-! ### On a crossbar -/

/-- A crossbar that is asked for nothing answers nothing. -/
theorem Run.InStep.iterate_of_allDrained {r : Run Crossbar} (h : r.InStep)
    (hd : r.allDrained = true) (k : Nat) :
    (r.iterate k).completions.toList = r.completions.toList ∧
      (r.iterate k).shadow = r.shadow := by
  have hno : ∀ c, (r.iterate k).bench.device.answered c = false := by
    intro c
    have hdrained := r.allDrained_iff.mp hd c
    have ha := h.not_awaiting_of_drained hdrained
    have hrequest := h.request_iterate k c
    rw [Requester.next_empty ha (h.drained c hdrained).2] at hrequest
    rw [Crossbar.answered, hrequest, ha, Bool.false_and]
  have he : Device.entries r.stimulate.bench.toResponse.device k = [] := by
    rw [h.landed.entries_iterate, List.filter_eq_nil_iff.mpr fun c _ => by simp [hno c]]
    rfl
  constructor
  · rw [completions_iterate, he, List.append_nil]
  · rw [shadow_iterate, he]
    rfl

namespace Testbench

theorem unroll_of_allDrained {b : Testbench Crossbar} (hb : b.Reached) {s : Scenario} {n m : Nat}
    (hd : (b.unroll .standard s n).allDrained = true) (hn : n ≤ m) :
    (b.unroll .standard s m).allDrained = true ∧
      (b.unroll .standard s m).completions.toList =
        (b.unroll .standard s n).completions.toList ∧
      (b.unroll .standard s m).shadow = (b.unroll .standard s n).shadow := by
  induction hn with
  | refl => exact ⟨hd, rfl, rfl⟩
  | @step m hn ih =>
    obtain ⟨hdm, hc, hs⟩ := ih
    obtain ⟨hc', hs'⟩ :=
      (serving_unroll hb s m).inStep.iterate_of_allDrained hdm (m + 1)
    refine ⟨(Run.allDrained_iff _).mpr fun c => ?_, hc'.trans hc, hs'.trans hs⟩
    exact drained_mono ((Run.allDrained_iff _).mp hdm c) (Nat.le_succ m)

/-- Idle slots at the end of the sequences are neutral on every device. On a crossbar, where both
runs end, they add nothing to the completions and leave the same shadow memory and words. -/
theorem perform_padded :
    (∀ {σ : Type} [Device σ] (b : Testbench σ) (map : AddressMap),
      Device.addressWidth b.device = map.width →
      ∀ (s : Scenario) (pad : Port → Nat) (limit : Nat), ∃ report recorded report' recorded',
        b.OnRecord map s report recorded ∧
        b.OnRecord map ((s.padded pad).withLimit limit) report' recorded' ∧
        b.Neutral map s pad limit report report') ∧
    ∀ b : Testbench Crossbar, b.Reached →
      ∀ (s : Scenario) (pad : Port → Nat) (limit : Nat), ∃ report bench report' bench',
        b.perform s = .ok (report, bench) ∧
        b.perform ((s.padded pad).withLimit limit) = .ok (report', bench') ∧
        (report.outcome = .done → report'.outcome = .done →
          report'.completions = report.completions ∧ report'.shadow = report.shadow ∧
          ∀ p o, bench'.device.word p o = bench.device.word p o) := by
  constructor
  · intro σ _ b map width s pad limit
    obtain ⟨report, recorded, hr⟩ := exists_onRecord width s
    obtain ⟨report', recorded', hr'⟩ := exists_onRecord width ((s.padded pad).withLimit limit)
    exact ⟨report, recorded, report', recorded', hr, hr',
      neutral_of_performs width hr.performs hr'.performs⟩
  · intro b hb s pad limit
    obtain ⟨report, recorded, hr⟩ := exists_onRecord b.addressWidth_crossbar s
    obtain ⟨report', recorded', hr'⟩ :=
      exists_onRecord b.addressWidth_crossbar ((s.padded pad).withLimit limit)
    refine ⟨report, _, report', _, hr.performs, hr'.performs, fun hd hd' => ?_⟩
    obtain ⟨n, n', hn, hdrained, he, he'⟩ :=
      exists_ends b.addressWidth_crossbar hr.performs hr'.performs hd hd'
    obtain ⟨rfl, hbench⟩ := Prod.mk.inj he
    obtain ⟨rfl, hbench'⟩ := Prod.mk.inj he'
    obtain ⟨hdrained', hc, hs⟩ := unroll_of_allDrained hb hdrained hn
    have hp := padded_unroll b .standard s pad n'
    refine ⟨hp.completions.trans hc, hp.shadow.trans hs, fun p o => ?_⟩
    have hword := Crossbar.word_eq ((agreeing_unroll hb s n).words_of_allDrained hdrained) p o
    have hword' := Crossbar.word_eq ((agreeing_unroll hb s n').words_of_allDrained hdrained') p o
    rw [hbench, hbench', hp.device, hword', hs, hword]

/-- Two ports contend for a slow peripheral. The third is padded most and, though it is found
empty first, keeps the run going. -/
theorem perform_padded_of_contended :
    let b := (new (Crossbar.initial.withSpuriousReady .three)).after
      [.setRequest .two true, .toResponse]
    let s := { Scenario.blank "contended" with
      delays := #v[0, 0, 1, 0]
      sequences := #v[[some (.read 0x8001)], [some (.write 0x8001 0xF 1), none],
        [some (.read 0x4001)]] }
    let pad : Port → Nat := Vector.get #v[0, 2, 9]
    (Device.addressWidth b.device = AddressMap.standard.width ∧ b.Reached ∧
      b.FoundEmptyAt .standard s 4 .one ∧ b.FoundEmptyAt .standard s 7 .two ∧
      b.FoundEmptyAt .standard s 3 .three) ∧
    ((b.perform s).map fun r => (r.1.outcome, r.1.iterations)) = .ok (.done, 7) ∧
    ((b.perform ((s.padded pad).withLimit 30)).map fun r => (r.1.outcome, r.1.iterations)) =
      .ok (.done, 12) ∧
    (∃ report recorded report' recorded', b.OnRecord .standard s report recorded ∧
      b.OnRecord .standard ((s.padded pad).withLimit 30) report' recorded' ∧
      b.Neutral .standard s pad 30 report report') ∧
    ∃ report bench report' bench', b.perform s = .ok (report, bench) ∧
      b.perform ((s.padded pad).withLimit 30) = .ok (report', bench') ∧
      (report.outcome = .done → report'.outcome = .done →
        report'.completions = report.completions ∧ report'.shadow = report.shadow ∧
        ∀ p o, bench'.device.word p o = bench.device.word p o) :=
  have hb := ⟨Crossbar.initial.withSpuriousReady .three, _, ⟨[.withSpuriousReady .three], rfl⟩, rfl⟩
  ⟨⟨rfl, hb, ⟨by decide +kernel, by decide +kernel⟩, ⟨by decide +kernel, by decide +kernel⟩,
      ⟨by decide +kernel, by decide +kernel⟩⟩,
    by decide +kernel, by decide +kernel, perform_padded.1 _ _ rfl _ _ _,
    perform_padded.2 _ hb _ _ _⟩

end Testbench

end CrossbarBench
