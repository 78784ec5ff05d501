import CrossbarBench.Crossbar.Basic
import CrossbarBench.Proofs.Bench.Closure
import CrossbarBench.Proofs.Ledger.Audit
import CrossbarBench.Proofs.Run.Campaign
import CrossbarBench.Proofs.Run.Log

/-! Three accounts of what went wrong, whatever the device does: the failures in the reports, the
failure records in the log, and the outcomes. A run keeps no failure without logging it and logs
none without keeping it, and it times out exactly when it is cut off. So over a whole campaign
the log, the reports and the summary agree. -/

namespace CrossbarBench

namespace LogRecord

/-- The record tells of a failure: when, in which iteration and on which port it was found, with
the severity of its kind. -/
structure TellsOf (record : LogRecord) (f : Failure) : Prop where
  time : record.time = f.time
  iteration : record.get? "iteration" = some (toString f.iteration)
  port : record.get? "port" = f.port.map fun port => toString port.number
  severity : record.severity = if f.isTimeout then .error else .assertion

theorem tellsOf_record (f : Failure) : f.record.TellsOf f where
  time := rfl
  iteration := by
    unfold get? Failure.record Failure.fields Failure.kindFields
    cases f.port <;> cases f.kind <;> rfl
  port := by
    unfold get? Failure.record Failure.fields Failure.kindFields
    cases f.port <;> cases f.kind <;> rfl
  severity := rfl

theorem isFailure_record (f : Failure) : f.record.severity.isFailure = true := by
  rw [(tellsOf_record f).severity]
  split <;> rfl

/-- Past the records of a first part, the failure records of a log are those of some failures, in
order. -/
def Accounts (base log : List LogRecord) (failures : List Failure) : Prop :=
  ∃ sent, log = base ++ sent ∧
    (sent.filter fun record => record.severity.isFailure) = failures.map Failure.record

namespace Accounts

variable {base log : List LogRecord} {failures more : List Failure} {record : LogRecord}

theorem start (base : List LogRecord) : Accounts base base [] :=
  ⟨[], (List.append_nil base).symm, rfl⟩

/-- A record that is not of a failure changes nothing. -/
theorem pass (h : Accounts base log failures) (hr : record.severity.isFailure = false) :
    Accounts base (log ++ [record]) failures := by
  obtain ⟨sent, rfl, hs⟩ := h
  refine ⟨sent ++ [record], List.append_assoc .., ?_⟩
  rw [List.filter_append, hs, List.filter_cons_of_neg (by simp [hr]), List.filter_nil,
    List.append_nil]

theorem fail (h : Accounts base log failures) (f : Failure) :
    Accounts base (log ++ [f.record]) (failures ++ [f]) := by
  obtain ⟨sent, rfl, hs⟩ := h
  refine ⟨sent ++ [f.record], List.append_assoc .., ?_⟩
  rw [List.filter_append, hs, List.filter_cons_of_pos (by exact isFailure_record f),
    List.filter_nil, List.map_append, List.map_singleton]

theorem trans {last : List LogRecord} (h : Accounts base log failures)
    (h' : Accounts log last more) : Accounts base last (failures ++ more) := by
  obtain ⟨sent, rfl, hs⟩ := h
  obtain ⟨rest, rfl, hr⟩ := h'
  refine ⟨sent ++ rest, List.append_assoc .., ?_⟩
  rw [List.filter_append, hs, hr, List.map_append]

end Accounts

end LogRecord

/-! ### Runs -/

namespace Run

variable {σ : Type} {base : List LogRecord} {r : Run σ}

/-- A run has kept the failures that it has logged. -/
def Accounted (base : List LogRecord) (r : Run σ) : Prop :=
  LogRecord.Accounts base r.bench.records.toList r.failures.toList

namespace Accounted

theorem fail (h : r.Accounted base) (f : Failure) : (r.fail f).Accounted base := by
  unfold Accounted Run.fail Testbench.emit
  rw [Array.toList_push, Array.toList_push]
  exact LogRecord.Accounts.fail h f

theorem complete (h : r.Accounted base) (c : Completion) (word : Word) :
    (r.complete c word).Accounted base := by
  have hd : (c.record r.bench.time word).severity = .debug := by
    unfold Completion.record
    cases c.access <;> rfl
  unfold Accounted Run.complete Testbench.emit
  rw [Array.toList_push]
  exact LogRecord.Accounts.pass h (by rw [hd]; rfl)

theorem retire (h : r.Accounted base) (iteration : Nat) (port : Port) (shake : Handshake) :
    (r.retire iteration port shake).Accounted base := by
  have hfree : (r.withRequester port ({ · with awaiting := false })).Accounted base := h
  unfold Run.retire
  cases shake.isWrite with
  | true =>
    exact complete (r := { r.withRequester port ({ · with awaiting := false }) with
      shadow := (r.shadow.write shake.address shake.enables shake.writeData).2 }) h _ _
  | false =>
    refine complete ?_ _ _
    split
    · exact hfree
    · exact hfree.fail _

variable [Device σ]

theorem feed (h : r.Accounted base) (port : Port) : (r.feed port).Accounted base := by
  have hfailures : (r.feed port).failures = r.failures := by rw [feed_eq]
  unfold Accounted
  rw [records_feed, hfailures]
  cases (r.requesters.get port).raised? with
  | none => exact (List.append_nil r.bench.records.toList).symm ▸ h
  | some request => exact LogRecord.Accounts.pass h rfl

theorem iterate (h : r.Accounted base) (k : Nat) : (r.iterate k).Accounted base := by
  refine iterate_keeps (P := Accounted base) (fun r hr => ?_) (fun _ port hr => hr.feed port)
    (fun r hr => ?_) (fun _ f hr => hr.fail f)
    (fun _ k port shake hr => hr.retire k port shake) h k
  · unfold Accounted
    rwa [show (r.withBench Testbench.toStimulus).bench.records = r.bench.records from
      Testbench.records_toStimulus r.bench]
  · unfold Accounted
    rwa [show (r.withBench Testbench.toResponse).bench.records = r.bench.records from
      Testbench.records_toResponse r.bench]

theorem unroll (b : Testbench σ) (map : AddressMap) (s : Scenario) (n : Nat) :
    (b.unroll map s n).Accounted b.records.toList :=
  Testbench.unroll_induction (P := fun _ r => r.Accounted b.records.toList)
    (by rw [Accounted, Testbench.records_launch, Testbench.failures_launch]; exact .start _)
    (fun n _ h => h.iterate (n + 1)) n

end Accounted

end Run

/-! ### Reports and summaries -/

/-- A report was cut off exactly if it holds a timeout, which is then the only one and its last
failure. -/
structure Report.TellsItsEnd (r : Report) : Prop where
  aborted_iff : r.outcome = .aborted ↔ ∃ f ∈ r.failures, f.isTimeout = true
  last : r.outcome = .aborted → ∃ earlier f, r.failures = earlier ++ [f] ∧ f.isTimeout = true ∧
    ∀ g ∈ earlier, g.isTimeout = false

namespace Report.TellsItsEnd

variable {r : Report}

theorem of_done (h : r.outcome = .done) (ht : r.failures.filter Failure.isTimeout = []) :
    r.TellsItsEnd := by
  have hnone : ∀ f ∈ r.failures, ¬ f.isTimeout = true := List.filter_eq_nil_iff.mp ht
  constructor
  · rw [h]
    exact ⟨by rintro ⟨⟩, fun ⟨f, hf, hk⟩ => absurd hk (hnone f hf)⟩
  · rw [h]
    rintro ⟨⟩

theorem of_aborted (h : r.outcome = .aborted) {earlier : List Failure} {f : Failure}
    (hr : r.failures = earlier ++ [f]) (hf : f.isTimeout = true)
    (ht : earlier.filter Failure.isTimeout = []) : r.TellsItsEnd where
  aborted_iff := ⟨fun _ => ⟨f, by simp [hr], hf⟩, fun _ => h⟩
  last _ := ⟨earlier, f, hr, hf, fun g hg => by
    simpa using List.filter_eq_nil_iff.mp ht g hg⟩

theorem countP_isTimeout (h : r.TellsItsEnd) :
    r.failures.countP Failure.isTimeout = if r.outcome = .aborted then 1 else 0 := by
  split
  · rename_i ha
    obtain ⟨earlier, f, hr, hf, ht⟩ := h.last ha
    rw [hr, List.countP_append, List.countP_singleton, if_pos hf,
      List.countP_eq_zero.mpr fun g hg => by simp [ht g hg]]
  · rename_i ha
    refine List.countP_eq_zero.mpr fun f hf hk => ha (h.aborted_iff.mpr ⟨f, hf, hk⟩)

/-- A report without failures was not cut off. -/
theorem passed_iff (h : r.TellsItsEnd) : r.passed = true ↔ r.failures = [] := by
  rw [passed, Bool.and_eq_true, decide_eq_true_eq, List.isEmpty_iff]
  refine ⟨fun hp => hp.2, fun hp => ⟨?_, hp⟩⟩
  cases ho : r.outcome with
  | done => rfl
  | aborted =>
    obtain ⟨f, hf, -⟩ := h.aborted_iff.mp ho
    rw [hp] at hf
    cases hf

end Report.TellsItsEnd

namespace Summary

theorem errorCount_eq (s : Summary) :
    s.errorCount = (s.reports.flatMap Report.failures).length := by
  unfold errorCount
  induction s.reports with
  | nil => rfl
  | cons r reports ih =>
    rw [List.foldr_cons, ih, List.flatMap_cons, List.length_append]
    rfl

theorem timeouts_eq {s : Summary} (h : ∀ r ∈ s.reports, r.TellsItsEnd) :
    s.timeouts = (s.reports.flatMap Report.failures).countP Failure.isTimeout := by
  unfold timeouts
  revert h
  induction s.reports with
  | nil => exact fun _ => rfl
  | cons r reports ih =>
    intro h
    rw [List.countP_cons, List.flatMap_cons, List.countP_append,
      ih fun r' hr => h r' (List.mem_cons_of_mem r hr),
      (h r List.mem_cons_self).countP_isTimeout, Nat.add_comm]
    simp only [decide_eq_true_eq]

theorem passed_iff {s : Summary} (h : ∀ r ∈ s.reports, r.TellsItsEnd) :
    s.passed = true ↔ ∀ r ∈ s.reports, r.passed = true := by
  rw [passed, decide_eq_true_eq, errorCount_eq, List.length_eq_zero_iff,
    List.flatMap_eq_nil_iff]
  exact forall₂_congr fun r hr => ((h r hr).passed_iff).symm

end Summary

/-! ### Campaigns -/

namespace Device

variable {σ : Type} [Device σ]

/-- The bus of a device can be decoded, and remains so whatever a testbench does. -/
def Decodable (d : σ) : Prop :=
  ∃ Q : σ → Prop, Closed Q ∧ Q d ∧ ∀ d, Q d → 2 ≤ addressWidth d ∧ addressWidth d ≤ 32

theorem closed_decodable : Closed (Decodable (σ := σ)) where
  sample _ time h := h.imp fun _ hQ => ⟨hQ.1, hQ.1.sample _ time hQ.2.1, hQ.2.2⟩
  setClock _ high h := h.imp fun _ hQ => ⟨hQ.1, hQ.1.setClock _ high hQ.2.1, hQ.2.2⟩
  setReset _ high h := h.imp fun _ hQ => ⟨hQ.1, hQ.1.setReset _ high hQ.2.1, hQ.2.2⟩
  setDelay _ peripheral delay h := h.imp fun _ hQ =>
    ⟨hQ.1, hQ.1.setDelay _ peripheral delay hQ.2.1, hQ.2.2⟩
  drive _ port signal value h := h.imp fun _ hQ =>
    ⟨hQ.1, hQ.1.drive _ port signal value hQ.2.1, hQ.2.2⟩

theorem Decodable.exists_map {d : σ} (h : Decodable d) :
    ∃ map : AddressMap, addressWidth d = map.width := by
  obtain ⟨Q, -, hd, hw⟩ := h
  exact ⟨⟨addressWidth d, (hw d hd).1, (hw d hd).2⟩, rfl⟩

end Device

namespace LogRecord.Accounts

variable {σ : Type} {base : List LogRecord} {b : Testbench σ} {failures : List Failure}

theorem announce (h : Accounts base b.records.toList failures) (s : Scenario) :
    Accounts base (b.announce s).records.toList failures := by
  unfold Testbench.announce Testbench.info Testbench.debug Testbench.log Testbench.emit
  rw [Array.toList_push, Array.toList_push]
  exact (h.pass rfl).pass rfl

theorem conclude (h : Accounts base b.records.toList failures) (r : Report) :
    Accounts base (b.conclude r).records.toList failures := by
  unfold Testbench.conclude Testbench.info Testbench.log Testbench.emit
  rw [Array.toList_push]
  exact h.pass rfl

end LogRecord.Accounts

namespace Testbench

variable {σ : Type} [Device σ] {b : Testbench σ}

/-- A run logs the failures of its report and no others, and the report tells how it ended. -/
theorem perform_accounts {map : AddressMap} (width : Device.addressWidth b.device = map.width)
    (s : Scenario) :
    ∃ report bench, b.perform s = .ok (report, bench) ∧ report.name = s.name ∧
      report.TellsItsEnd ∧
      LogRecord.Accounts b.records.toList bench.records.toList report.failures := by
  rcases perform_unroll width s with ⟨n, -, -, hp⟩ | ⟨-, hp⟩
  · exact ⟨_, _, hp, rfl, .of_done rfl (timeouts_unroll b map s n),
      Run.Accounted.unroll b map s n⟩
  · have hlast := failures_cutOff b map s
    exact ⟨_, _, hp, rfl, .of_aborted rfl hlast rfl (timeouts_unroll b map s _),
      (Run.Accounted.unroll b map s (s.limit - 1)).fail _⟩

/-- Over a campaign on a device whose bus can be decoded, the failure records that are logged tell
of the failures in the reports, one for one and in order. Every report that was cut off holds a
timeout, alone and last, and no other report does. So the summary counts the failure records and
the timeouts, and passes exactly if every report does. -/
theorem campaign_accounts (h : Device.Decodable b.device) (scenarios : List Scenario) :
    ∃ summary last sent, b.campaign scenarios = .ok (summary, last) ∧
      last.records.toList = b.records.toList ++ sent ∧
      let alarms := sent.filter fun record => record.severity.isFailure
      let failures := summary.reports.flatMap Report.failures
      List.Forall₂ LogRecord.TellsOf alarms failures ∧
      summary.reports.map Report.name = scenarios.map Scenario.name ∧
      (∀ report ∈ summary.reports, report.TellsItsEnd) ∧
      summary.errorCount = alarms.length ∧
      summary.timeouts = failures.countP Failure.isTimeout ∧
      (summary.passed = true ↔ ∀ report ∈ summary.reports, report.passed = true) := by
  obtain ⟨reports, last, hall, hends, -, sent, hsent, halarms⟩ := performAll_ends
    (P := fun done b' => Device.Decodable b'.device ∧
      LogRecord.Accounts b.records.toList b'.records.toList (done.flatMap Report.failures))
    (R := fun s report => report.name = s.name ∧ report.TellsItsEnd)
    (by
      rintro s done b' ⟨hd, ha⟩
      obtain ⟨map, width⟩ := hd.exists_map
      obtain ⟨report, next, hp, hname, hend, hrun⟩ :=
        perform_accounts (b := b'.announce s) width s
      have hnext : Device.Decodable next.device :=
        Device.closed_decodable.perform (b := b'.announce s) hd width hp
      refine ⟨report, next, hp, ⟨hname, hend⟩, hnext, ?_⟩
      · rw [List.flatMap_append, List.flatMap_singleton]
        exact ((ha.announce s).trans hrun).conclude report)
    scenarios [] ⟨h, .start _⟩
  rw [List.nil_append] at halarms
  have hnames : reports.map Report.name = scenarios.map Scenario.name := by
    clear hall halarms
    induction hends with
    | nil => rfl
    | cons hr _ ih => rw [List.map_cons, List.map_cons, hr.1, ih]
  have hall_end : ∀ report ∈ reports, report.TellsItsEnd := by
    intro report hr
    obtain ⟨s, -, -, hend⟩ := exists_scenario hends hr
    exact hend
  refine ⟨⟨reports⟩, last, sent, campaign_eq hall, hsent, ?_, hnames, hall_end, ?_,
    Summary.timeouts_eq hall_end, Summary.passed_iff hall_end⟩
  · rw [halarms, List.forall₂_map_left_iff]
    exact List.forall₂_same.mpr fun f _ => LogRecord.tellsOf_record f
  · rw [halarms, List.length_map, Summary.errorCount_eq]

/-- A campaign of two on a crossbar that flips bits and shows ready unasked. The second scenario is
cut off. -/
theorem campaign_accounts_of_faulty :
    let b := new ((Crossbar.initial.withSpuriousReady .three).withCorruption 0xFF)
    let s := { (Scenario.blank "first").withLimit 20 with
      sequences := #v[[some (.read 0x8001)], [none, some (.write 0x8001 0xF 1)], []] }
    let scenarios := [s, { s with name := "second", limit := 3 }]
    Device.Decodable b.device ∧
    ((b.campaign scenarios).map fun r => (r.1.errorCount, r.1.timeouts)) = .ok (9, 1) ∧
    ∃ summary last sent, b.campaign scenarios = .ok (summary, last) ∧
      last.records.toList = b.records.toList ++ sent ∧
      let alarms := sent.filter fun record => record.severity.isFailure
      let failures := summary.reports.flatMap Report.failures
      List.Forall₂ LogRecord.TellsOf alarms failures ∧
      summary.reports.map Report.name = scenarios.map Scenario.name ∧
      (∀ report ∈ summary.reports, report.TellsItsEnd) ∧
      summary.errorCount = alarms.length ∧
      summary.timeouts = failures.countP Failure.isTimeout ∧
      (summary.passed = true ↔ ∀ report ∈ summary.reports, report.passed = true) :=
  have h := ⟨fun _ => True, ⟨fun _ _ _ => trivial, fun _ _ _ => trivial, fun _ _ _ => trivial,
    fun _ _ _ _ => trivial, fun _ _ _ _ _ => trivial⟩, trivial,
    fun _ _ => ⟨AddressMap.standard.two_le_width, AddressMap.standard.width_le⟩⟩
  ⟨h, by decide +kernel, campaign_accounts h _⟩

end Testbench

end CrossbarBench
