import CrossbarBench.Crossbar.Basic
import CrossbarBench.Proofs.Bench.Recorder
import CrossbarBench.Proofs.Run.Log

/-! At most one outstanding request, whatever the device answers. A port awaits an answer exactly
while its last request has not met request and ready in a response phase, so what a run has seen
of the device decides when the port is fed again. Until then nothing drives the port and its
sequence stays as it is. A port that is found with no slot left and nothing outstanding remains
so, and the run ends once that has happened to every port. -/

namespace CrossbarBench

namespace Run

variable {σ : Type} [Device σ]

/-- The run within a stimulus phase, when a port has just been fed. -/
def fedThrough (r : Run σ) (port : Port) : Run σ :=
  (Port.all.take port.number).foldl feed (r.withBench Testbench.toStimulus)

/-! ### What drives a port -/

variable {r : Run (Recorder σ)} {c : Port}

theorem foldl_feed_others {ports : List Port} (h : c ∉ ports) (r : Run (Recorder σ)) :
    (ports.foldl feed r).bench.device.drivesOn c = r.bench.device.drivesOn c ∧
      (ports.foldl feed r).requesters.get c = r.requesters.get c := by
  induction ports generalizing r with
  | nil => exact ⟨rfl, rfl⟩
  | cons port ports ih =>
    have hne : port ≠ c := fun he => h (he ▸ List.mem_cons_self)
    obtain ⟨hd, hr⟩ := ih (fun hm => h (List.mem_cons_of_mem port hm)) (r.feed port)
    rw [List.foldl_cons, hd, hr, requesters_feed, if_neg hne, feed_eq]
    exact ⟨Recorder.drivesOn_actOn (fun he => absurd he hne) _, rfl⟩

/-- The ports that are fed later leave a port alone. -/
theorem stimulate_of_fed (r : Run (Recorder σ)) (c : Port) :
    r.stimulate.bench.device.drivesOn c = (r.fedThrough c).bench.device.drivesOn c ∧
      r.stimulate.requesters.get c = (r.fedThrough c).requesters.get c := by
  have hlater : c ∉ Port.all.drop c.number := by
    revert c
    decide
  have hsplit : r.stimulate = (Port.all.drop c.number).foldl feed (r.fedThrough c) := by
    rw [fedThrough, ← List.foldl_append, List.take_append_drop]
    rfl
  rw [hsplit]
  exact foldl_feed_others hlater _

/-- The response phase drives nothing. -/
theorem drivesOn_iterate (r : Run (Recorder σ)) (k : Nat) :
    (r.iterate k).bench.device.drivesOn c = r.stimulate.bench.device.drivesOn c := by
  rw [device_iterate]
  exact Recorder.drivesOn_toResponse _

theorem drivesOn_stimulate (h : (r.requesters.get c).awaiting = true) :
    r.stimulate.bench.device.drivesOn c = r.bench.device.drivesOn c := by
  have hq : ∀ port, port = c → (r.requesters.get port).awaiting = true := by
    rintro port rfl
    exact h
  rw [device_stimulate, Port.all, List.foldl_cons, List.foldl_cons, List.foldl_cons,
    List.foldl_nil, Recorder.drivesOn_actOn (hq .three), Recorder.drivesOn_actOn (hq .two),
    Recorder.drivesOn_actOn (hq .one), Recorder.drivesOn_toStimulus]

end Run

namespace Testbench

variable {σ : Type} [Device σ]

/-! ### What a run sees of its requests -/

/-- In the response phase of iteration `k` a port shows both request and ready. -/
def Answers (b : Testbench σ) (map : AddressMap) (s : Scenario) (k : Nat) (port : Port) : Prop :=
  ∃ n, k = n + 1 ∧
    let d := (b.unroll map s n).stimulate.bench.toResponse.device
    Device.request d port = true ∧ Device.ready d port = true

/-- A request that was issued on a port is still to be answered after iteration `n`. -/
def Outstanding (b : Testbench σ) (map : AddressMap) (s : Scenario) (n : Nat) (port : Port) :
    Prop :=
  ∃ k q, k ≤ n ∧ b.Issues map s k port q ∧ ∀ i, k ≤ i → i ≤ n → ¬ b.Answers map s i port

/-- The feed that follows on `n` iterations finds a port with no slot left and nothing
outstanding. -/
def FoundIdle (b : Testbench σ) (map : AddressMap) (s : Scenario) (n : Nat) (port : Port) : Prop :=
  ((b.unroll map s n).requesters.get port).slots = [] ∧ ¬ b.Outstanding map s n port

/-- Every port has been found idle by the end of the feed of iteration `k`. -/
def AllFoundIdle (b : Testbench σ) (map : AddressMap) (s : Scenario) (k : Nat) : Prop :=
  ∀ port, ∃ n, n < k ∧ b.FoundIdle map s n port

/-- The slots that a port has taken in `n` iterations, in order. -/
def taken (b : Testbench σ) (map : AddressMap) (s : Scenario) (n : Nat) (port : Port) :
    List Slot :=
  (List.range n).filterMap fun m => ((b.unroll map s m).requesters.get port).taken?

/-- From right after its feed in iteration `k` to the end of iteration `m` a port is not driven
and takes no slot. Recordings only grow and sequences only shrink, so both ends tell. -/
structure Steady (b : Testbench σ) (map : AddressMap) (s : Scenario) (k m : Nat) (port : Port) :
    Prop where
  drives : (b.recording.unroll map s m).bench.device.drivesOn port =
    ((b.recording.unroll map s (k - 1)).fedThrough port).bench.device.drivesOn port
  slots : ((b.recording.unroll map s m).requesters.get port).slots =
    (((b.recording.unroll map s (k - 1)).fedThrough port).requesters.get port).slots

section
variable {b : Testbench σ} {map : AddressMap} {s : Scenario} {c : Port} {q : Request} {k m n : Nat}

theorem answers_succ : b.Answers map s (n + 1) c ↔
    (Device.handshake? (b.unroll map s n).stimulate.bench.toResponse.device c).isSome = true := by
  have hshake : ∀ d : σ, (Device.handshake? d c).isSome = true ↔
      Device.request d c = true ∧ Device.ready d c = true := by
    intro d
    unfold Device.handshake?
    rw [← Bool.and_eq_true]
    split <;> rename_i h <;> simp [h]
  rw [hshake]
  constructor
  · rintro ⟨m, hm, hd⟩
    cases hm
    exact hd
  · exact fun hd => ⟨n, rfl, hd⟩

theorem issues_succ : b.Issues map s (n + 1) c q ↔
    ((b.unroll map s n).requesters.get c).raised? = some q := by
  constructor
  · rintro ⟨m, hm, hr⟩
    cases hm
    exact hr
  · exact fun hr => ⟨n, rfl, hr⟩

theorem not_issues_zero : ¬ b.Issues map s 0 c q := by
  rintro ⟨n, hn, -⟩
  cases hn

theorem outstanding_succ : b.Outstanding map s (n + 1) c ↔
    (b.Outstanding map s n c ∨ ∃ q, b.Issues map s (n + 1) c q) ∧ ¬ b.Answers map s (n + 1) c := by
  constructor
  · rintro ⟨k, q, hk, hq, hno⟩
    refine ⟨?_, hno (n + 1) hk (Nat.le_refl _)⟩
    rcases Nat.lt_or_eq_of_le hk with hlt | rfl
    · exact .inl ⟨k, q, Nat.le_of_lt_succ hlt, hq, fun i hki hi => hno i hki (Nat.le_succ_of_le hi)⟩
    · exact .inr ⟨q, hq⟩
  · rintro ⟨⟨k, q, hk, hq, hno⟩ | ⟨q, hq⟩, hnow⟩
    · refine ⟨k, q, Nat.le_succ_of_le hk, hq, fun i hki hi => ?_⟩
      rcases Nat.lt_or_eq_of_le hi with hlt | rfl
      · exact hno i hki (Nat.le_of_lt_succ hlt)
      · exact hnow
    · refine ⟨n + 1, q, Nat.le_refl _, hq, fun i hki hi => ?_⟩
      rw [Nat.le_antisymm hi hki]
      exact hnow

/-- A port awaits an answer exactly while a request on it is outstanding. -/
theorem awaiting_iff (n : Nat) : ((b.unroll map s n).requesters.get c).awaiting = true ↔
    b.Outstanding map s n c := by
  induction n with
  | zero =>
    rw [unroll, get_requesters_launch]
    constructor
    · rintro ⟨⟩
    · rintro ⟨k, q, hk, hq, -⟩
      rw [Nat.le_zero.mp hk] at hq
      exact absurd hq not_issues_zero
  | succ n ih =>
    have hraised : ((b.unroll map s n).requesters.get c).raised?.isSome = true ↔
        ∃ q, b.Issues map s (n + 1) c q := by
      rw [Option.isSome_iff_exists]
      exact exists_congr fun q => issues_succ.symm
    rw [outstanding_succ, answers_succ, ← ih, ← hraised, ← Bool.or_eq_true,
      ← Requester.awaiting_next, unroll, Run.requesters_iterate]
    split <;> rename_i hd <;> simp [hd]

theorem drained_iff (n : Nat) : ((b.unroll map s n).requesters.get c).drained = true ↔
    ∃ m, m < n ∧ b.FoundIdle map s m c := by
  induction n with
  | zero =>
    rw [unroll, get_requesters_launch]
    constructor
    · rintro ⟨⟩
    · rintro ⟨m, hm, -⟩
      cases hm
  | succ n ih =>
    have hfound : ((b.unroll map s n).requesters.get c).awaiting = false ∧
        ((b.unroll map s n).requesters.get c).slots = [] ↔ b.FoundIdle map s n c := by
      rw [FoundIdle, ← awaiting_iff, Bool.not_eq_true, and_comm]
    rw [unroll, Run.drained_iterate, Requester.drained_next, ih, hfound]
    constructor
    · rintro (⟨m, hm, hi⟩ | hi)
      · exact ⟨m, Nat.lt_succ_of_lt hm, hi⟩
      · exact ⟨n, Nat.lt_succ_self n, hi⟩
    · rintro ⟨m, hm, hi⟩
      rcases Nat.lt_succ_iff_lt_or_eq.mp hm with hlt | rfl
      · exact .inl ⟨m, hlt, hi⟩
      · exact .inr hi

theorem allDrained_iff_allFoundIdle (n : Nat) :
    (b.unroll map s n).allDrained = true ↔ b.AllFoundIdle map s n := by
  rw [Run.allDrained_iff]
  exact forall_congr' fun port => drained_iff n

theorem drainsAt_iff : b.DrainsAt map s n ↔
    b.AllFoundIdle map s n ∧ ∀ m, m < n → ¬ b.AllFoundIdle map s m := by
  have hnot : ∀ m, (b.unroll map s m).allDrained = false ↔ ¬ b.AllFoundIdle map s m := by
    intro m
    rw [← allDrained_iff_allFoundIdle, Bool.not_eq_true]
  constructor
  · intro h
    exact ⟨(allDrained_iff_allFoundIdle n).mp h.drained, fun m hm => (hnot m).mp (h.first m hm)⟩
  · rintro ⟨h, hfirst⟩
    exact ⟨(allDrained_iff_allFoundIdle n).mpr h, fun m hm => (hnot m).mpr (hfirst m hm)⟩

/-! ### Slots -/

/-- Every slot of a sequence is either taken or left. -/
theorem taken_append_slots (b : Testbench σ) (map : AddressMap) (s : Scenario) (n : Nat)
    (c : Port) : b.taken map s n c ++ ((b.unroll map s n).requesters.get c).slots =
      s.sequences.get c := by
  induction n with
  | zero =>
    rw [unroll, get_requesters_launch]
    rfl
  | succ n ih =>
    have hlast : b.taken map s (n + 1) c = b.taken map s n c ++
        ((b.unroll map s n).requesters.get c).taken?.toList := by
      rw [taken, List.range_succ, List.filterMap_append, taken]
      cases h : ((b.unroll map s n).requesters.get c).taken? <;> simp [h]
    rw [hlast, unroll, Run.slots_iterate, List.append_assoc, Requester.taken_append_slots, ih]

/-- A port that was found idle stays idle. -/
theorem FoundIdle.mono (h : b.FoundIdle map s m c) (hn : m ≤ n) : b.FoundIdle map s n c := by
  induction hn with
  | refl => exact h
  | @step n _ ih =>
    obtain ⟨hs, hidle⟩ := ih
    have hq := Requester.taken_append_slots ((b.unroll map s n).requesters.get c)
    rw [hs, List.append_eq_nil_iff] at hq
    constructor
    · rw [unroll, Run.slots_iterate]
      exact hq.2
    · rw [outstanding_succ]
      rintro ⟨ho | ⟨q, hi⟩, -⟩
      · exact hidle ho
      · rw [issues_succ, Requester.raised?, hs] at hi
        split at hi <;> cases hi

/-! ### While a request is outstanding -/

theorem steady_of_unanswered (hq : b.Issues map s k c q) (hm : k ≤ m)
    (hno : ∀ i, k ≤ i → i < m → ¬ b.Answers map s i c) : b.Steady map s k m c := by
  induction hm with
  | refl =>
    obtain ⟨n, rfl, -⟩ := hq
    obtain ⟨hd, hr⟩ := (b.recording.unroll map s n).stimulate_of_fed c
    constructor
    · rw [unroll, Run.drivesOn_iterate, hd, Nat.add_sub_cancel]
    · rw [unroll, Run.slots_iterate, ← Run.requesters_stimulate, hr, Nat.add_sub_cancel]
  | @step m hm ih =>
    obtain ⟨hd, hs⟩ := ih fun i hki hi => hno i hki (Nat.lt_succ_of_lt hi)
    have ha : ((b.recording.unroll map s m).requesters.get c).awaiting = true := by
      rw [requesters_recording, awaiting_iff]
      exact ⟨k, q, hm, hq, fun i hki hi => hno i hki (Nat.lt_succ_of_le hi)⟩
    constructor
    · rw [unroll, Run.drivesOn_iterate, Run.drivesOn_stimulate ha, hd]
    · rw [unroll, Run.slots_iterate, Requester.next_awaiting ha, hs]

/-- An answer is entered into the ledger. -/
theorem exists_completion (h : b.Answers map s k c) (hn : k ≤ n) :
    ∃ e ∈ (b.unroll map s n).completions.toList, e.port = c ∧ e.iteration = k := by
  induction hn with
  | refl =>
    obtain ⟨m, rfl, hd⟩ := h
    obtain ⟨shake, hs⟩ := Option.isSome_iff_exists.mp (answers_succ.mp ⟨m, rfl, hd⟩)
    refine ⟨shake.completion (m + 1) c, ?_, rfl, rfl⟩
    rw [unroll, Run.completions_iterate]
    refine List.mem_append_right _ (List.mem_filterMap.mpr ⟨c, Port.mem_all c, ?_⟩)
    rw [Device.completed?, hs]
    rfl
  | @step n _ ih =>
    obtain ⟨e, he, hp⟩ := ih
    refine ⟨e, ?_, hp⟩
    rw [unroll, Run.completions_iterate]
    exact List.mem_append_left _ he

theorem toldInTurn_unroll (b : Testbench σ) (map : AddressMap) (s : Scenario) (c : Port) (n : Nat) :
    (b.unroll map s n).ToldInTurn b.records.toList c := by
  exact unroll_induction (P := fun _ r => r.ToldInTurn b.records.toList c)
    ⟨[], by rw [records_launch, List.append_nil], .nil⟩ (fun n _ h => h.iterate (n + 1)) n

/-! ### Whole runs -/

theorem DrainsAt.foundIdle (h : b.DrainsAt map s n) (c : Port) : b.FoundIdle map s n c := by
  obtain ⟨m, hm, hfound⟩ := (drainsAt_iff.mp h).1 c
  exact hfound.mono (Nat.le_of_lt hm)

theorem DrainsAt.taken_eq (h : b.DrainsAt map s n) (c : Port) :
    b.taken map s n c = s.sequences.get c := by
  have htaken := taken_append_slots b map s n c
  rw [(h.foundIdle c).1, List.append_nil] at htaken
  exact htaken

/-- By the time that a run drains, every request has been answered. -/
theorem DrainsAt.exists_answer (h : b.DrainsAt map s n) (hq : b.Issues map s k c q)
    (hk : k ≤ n) : ∃ i, k ≤ i ∧ i ≤ n ∧ b.Answers map s i c := by
  refine Classical.byContradiction fun hno => (h.foundIdle c).2 ?_
  exact ⟨k, q, hk, hq, fun i hki hi ha => hno ⟨i, hki, hi, ha⟩⟩

/-- How a run with a report and a log keeps to one outstanding request on every port. What it has
issued on a port it leaves alone until the answer, and it tells of no two requests without a
completion between them. It is done with the first iteration below the limit by which every port
has been found idle, so by then every slot has been taken once and every request answered. -/
structure OneOutstanding (b : Testbench σ) (map : AddressMap) (s : Scenario) (report : Report)
    (log : List LogRecord) : Prop where
  steady : ∀ port k q m, b.Issues map s k port q → k ≤ m →
    (∀ i, k ≤ i → i < m → ¬ b.Answers map s i port) → b.Steady map s k m port
  inTurn : ∀ port first between second, first :: (between ++ [second]) <:+: log →
    first.issuedOn port = true → second.issuedOn port = true →
    ∃ record ∈ between, record.Confirms port report.completions
  done_iff : ∀ k, report.outcome = .done ∧ report.iterations = k ↔
    k < s.limit ∧ b.AllFoundIdle map s k ∧ ∀ m, m < k → ¬ b.AllFoundIdle map s m
  consumed : report.outcome = .done → ∀ port,
    b.taken map s report.iterations port = s.sequences.get port
  answered : report.outcome = .done → ∀ port k q, k ≤ report.iterations →
    b.Issues map s k port q → ∃ i, k ≤ i ∧ i ≤ report.iterations ∧ b.Answers map s i port ∧
      ∃ c ∈ report.completionsOn port, c.iteration = i

/-- Whatever a device answers, on record or not, a run of a scenario keeps to one outstanding
request on every port. -/
theorem perform_one_outstanding (width : Device.addressWidth b.device = map.width)
    (s : Scenario) :
    ∃ report recorded log, b.OnRecord map s report recorded ∧
      recorded.records.toList = b.records.toList ++ log ∧
      b.OneOutstanding map s report log := by
  rcases onRecord_unroll width s with ⟨n, hl, hdrains, hr⟩ | ⟨hnot, hr⟩
  · obtain ⟨log, hlog, hturn⟩ := Run.LogsInTurn.exists_log fun c =>
      ⟨_, toldInTurn_unroll b.recording map s c n⟩
    refine ⟨_, _, log, hr, hlog, fun _ _ _ _ => steady_of_unanswered, hturn, fun k => ?_,
      fun _ port => hdrains.taken_eq port, fun _ port k q hk hq => ?_⟩
    · rw [← drainsAt_iff]
      constructor
      · rintro ⟨-, rfl⟩
        exact ⟨hl, hdrains⟩
      · rintro ⟨-, hk⟩
        exact ⟨rfl, hdrains.unique hk⟩
    · obtain ⟨i, hki, hi, ha⟩ := hdrains.exists_answer hq hk
      obtain ⟨e, he, hport, hiteration⟩ := exists_completion ha hi
      rw [← completions_recording] at he
      exact ⟨i, hki, hi, ha, e, List.mem_filter.mpr ⟨he, decide_eq_true hport⟩, hiteration⟩
  · obtain ⟨log, hlog, hturn⟩ := Run.LogsInTurn.exists_log fun c =>
      ⟨_, (toldInTurn_unroll b.recording map s c (s.limit - 1)).fail (b.recording.timeout map s)⟩
    refine ⟨_, _, log, hr, hlog, fun _ _ _ _ => steady_of_unanswered, hturn, fun k => ?_,
      by rintro ⟨⟩, by rintro ⟨⟩⟩
    rw [← drainsAt_iff]
    constructor
    · rintro ⟨⟨⟩, -⟩
    · rintro ⟨hk, hd⟩
      exact absurd hd (hnot k hk)

end

/-- Two ports contend for a slow peripheral that answers with flipped bits, and the third shows
ready unasked. -/
theorem perform_one_outstanding_of_contended :
    let b := new ((Crossbar.initial.withSpuriousReady .three).withCorruption 0xFF)
    let s := { (Scenario.blank "contended").withLimit 30 with
      delays := #v[0, 0, 2, 0]
      sequences := #v[[some (.read 0x8001), some (.read 0x8002)],
        [none, some (.write 0x8001 0xF 1)], []] }
    Device.addressWidth b.device = AddressMap.standard.width ∧
    ((b.perform s).map fun r => r.1.outcome) = .ok .done ∧
    ∃ report recorded log, b.OnRecord .standard s report recorded ∧
      recorded.records.toList = b.records.toList ++ log ∧
      b.OneOutstanding .standard s report log :=
  ⟨rfl, by decide +kernel, perform_one_outstanding rfl _⟩

end Testbench

end CrossbarBench
