import CrossbarBench.Proofs.Run.Loop
import CrossbarBench.Proofs.Run.Response
import CrossbarBench.Proofs.Run.Stimulus

/-! What the log tells of the requests that were issued, whatever the device answers. Only
the stimulus phase adds to it, one record for every request that it raises. A port that awaits
an answer raises nothing, so two requests on it never follow each other without a completion
on it between them. -/

namespace CrossbarBench

/-- The record tells that a request was issued on a port. -/
def LogRecord.issuedOn (port : Port) (record : LogRecord) : Bool :=
  record.severity = .debug && record.message = "Request issued" &&
    record.get? "port" = some (toString port.number)

theorem LogRecord.issuedOn_issueRecord (port c : Port) (q : Request) (time : Nat) :
    (Run.issueRecord port q time).issuedOn c = decide (port = c) := by
  have hn : ∀ port c : Port, port.number.repr = c.number.repr ↔ port = c := by decide
  simp [issuedOn, Run.issueRecord, get?, hn]

theorem LogRecord.not_issuedOn_failure (f : Failure) (port : Port) :
    f.record.issuedOn port = false := by
  have hs : f.record.severity ≠ .debug := by
    change (if f.isTimeout then Severity.error else .assertion) ≠ .debug
    split <;> decide
  simp [issuedOn, hs]

theorem LogRecord.not_issuedOn_completion (c : Completion) (time : Nat) (word : Word)
    (port : Port) : (c.record time word).issuedOn port = false := by
  have hm : (c.record time word).message ≠ "Request issued" := by
    unfold Completion.record
    cases c.access with
    | read => exact (by decide : "Read completed" ≠ "Request issued")
    | write => exact (by decide : "Write completed" ≠ "Request issued")
  simp [issuedOn, hm]

/-- The records of the requests issued on a port. -/
def Testbench.issuesOn {σ : Type} (b : Testbench σ) (port : Port) : List LogRecord :=
  b.records.toList.filter (LogRecord.issuedOn port)

theorem Testbench.issuesOn_emit {σ : Type} (b : Testbench σ) (record : LogRecord) (port : Port) :
    (b.emit record).issuesOn port =
      b.issuesOn port ++ if record.issuedOn port then [record] else [] := by
  rw [issuesOn, emit, Array.toList_push, List.filter_append, List.filter_singleton,
    Bool.cond_eq_ite]
  rfl

namespace Run

variable {σ : Type}

theorem issuesOn_fail (r : Run σ) (f : Failure) (c : Port) :
    (r.fail f).bench.issuesOn c = r.bench.issuesOn c := by
  rw [fail, Testbench.issuesOn_emit, LogRecord.not_issuedOn_failure]
  exact List.append_nil _

theorem issuesOn_complete (r : Run σ) (entry : Completion) (word : Word) (c : Port) :
    (r.complete entry word).bench.issuesOn c = r.bench.issuesOn c := by
  rw [complete, Testbench.issuesOn_emit, LogRecord.not_issuedOn_completion]
  exact List.append_nil _

/-- What adds nothing for one port adds nothing for many. -/
theorem issuesOn_foldl {f : Run σ → Port → Run σ} {c : Port}
    (hf : ∀ r port, (f r port).bench.issuesOn c = r.bench.issuesOn c) (ports : List Port)
    (r : Run σ) : (ports.foldl f r).bench.issuesOn c = r.bench.issuesOn c := by
  induction ports generalizing r with
  | nil => rfl
  | cons port ports ih => rw [List.foldl_cons, ih, hf]

theorem issuesOn_retire (r : Run σ) (iteration : Nat) (port : Port) (h : Handshake) (c : Port) :
    (r.retire iteration port h).bench.issuesOn c = r.bench.issuesOn c := by
  unfold retire
  dsimp only
  split
  · rw [issuesOn_complete]
    rfl
  · rw [issuesOn_complete]
    split
    · rfl
    · rw [issuesOn_fail]
      rfl

variable [Device σ]

/-! ### The response phase -/

theorem issuesOn_checkIdle (iteration : Nat) (r : Run σ) (port c : Port) :
    (checkIdle iteration r port).bench.issuesOn c = r.bench.issuesOn c := by
  unfold checkIdle
  split
  · exact issuesOn_fail r _ c
  · rfl

theorem issuesOn_collect (iteration : Nat) (r : Run σ) (port c : Port) :
    (collect iteration r port).bench.issuesOn c = r.bench.issuesOn c := by
  unfold collect
  split
  · rfl
  · exact issuesOn_retire r iteration port _ c

theorem issuesOn_respond (iteration : Nat) (r : Run σ) (c : Port) :
    (r.respond iteration).bench.issuesOn c = r.bench.issuesOn c := by
  rw [respond, issuesOn_foldl fun r port => issuesOn_collect iteration r port c,
    issuesOn_foldl fun r port => issuesOn_checkIdle iteration r port c]
  change r.bench.toResponse.records.toList.filter _ = _
  rw [Testbench.records_toResponse]
  rfl

/-! ### The stimulus phase -/

theorem records_feed (r : Run σ) (port : Port) :
    (r.feed port).bench.records.toList = r.bench.records.toList ++
      ((r.requesters.get port).raised?.map (issueRecord port · r.bench.time)).toList := by
  cases h : (r.requesters.get port).awaiting with
  | true =>
    rw [feed_awaiting h, Requester.raised?_awaiting h]
    exact (List.append_nil _).symm
  | false =>
    unfold feed
    cases hs : (r.requesters.get port).slots with
    | nil => simp [h, hs, Requester.raised?, withBench, withRequester, Testbench.onDevice]
    | cons slot rest =>
      cases slot with
      | none => simp [h, hs, Requester.raised?, withBench, withRequester, Testbench.onDevice]
      | some request =>
        simp [h, hs, Requester.raised?, withBench, withRequester, Testbench.onDevice,
          Testbench.emit]

theorem issuesOn_feed (r : Run σ) (port c : Port) :
    (r.feed port).bench.issuesOn c = r.bench.issuesOn c ++
      if port = c then
        ((r.requesters.get port).raised?.map (issueRecord port · r.bench.time)).toList
      else [] := by
  rw [Testbench.issuesOn, records_feed, List.filter_append, Testbench.issuesOn]
  cases (r.requesters.get port).raised? with
  | none => simp
  | some request =>
    simp [List.filter_singleton, LogRecord.issuedOn_issueRecord, Bool.cond_eq_ite]

/-- Every request that is raised is told of once. -/
theorem issuesOn_stimulate (r : Run σ) (c : Port) :
    r.stimulate.bench.issuesOn c = r.bench.issuesOn c ++
      ((r.requesters.get c).raised?.map (issueRecord c · r.stimulate.bench.time)).toList := by
  have ht : (r.withBench Testbench.toStimulus).bench.issuesOn c = r.bench.issuesOn c := by
    change r.bench.toStimulus.records.toList.filter _ = _
    rw [Testbench.records_toStimulus]
    rfl
  rw [time_stimulate, stimulate_eq, issuesOn_feed, issuesOn_feed, issuesOn_feed, ht]
  simp only [requesters_feed, time_feed]
  rcases Port.eq_one_or_two_or_three c with rfl | rfl | rfl <;>
    simp +decide only [reduceIte, List.append_nil] <;> rfl

theorem issuesOn_iterate (r : Run σ) (k : Nat) (c : Port) :
    (r.iterate k).bench.issuesOn c = r.bench.issuesOn c ++
      ((r.requesters.get c).raised?.map (issueRecord c · r.stimulate.bench.time)).toList := by
  rw [iterate, issuesOn_respond, issuesOn_stimulate]

end Run

/-! ### Requests and completions in turn -/

namespace LogRecord

/-- The record tells of a completion on a port. -/
def Confirms (port : Port) (ledger : List Completion) (record : LogRecord) : Prop :=
  ∃ c ∈ ledger, c.port = port ∧ ∃ time word, record = c.record time word

/-- A log that tells of a completion on a port between any two requests issued on it, and after
the last one as well if no answer is awaited. -/
structure InTurn (port : Port) (ledger : List Completion) (awaiting : Bool)
    (log : List LogRecord) : Prop where
  between : ∀ first between second, first :: (between ++ [second]) <:+: log →
    first.issuedOn port = true → second.issuedOn port = true →
    ∃ record ∈ between, record.Confirms port ledger
  settled : awaiting = false → ∀ first rest, first :: rest <:+ log →
    first.issuedOn port = true → ∃ record ∈ rest, record.Confirms port ledger

theorem Confirms.mono {port : Port} {ledger ledger' : List Completion} {record : LogRecord}
    (h : record.Confirms port ledger) (hl : ledger ⊆ ledger') : record.Confirms port ledger' := by
  obtain ⟨c, hc, hr⟩ := h
  exact ⟨c, hl hc, hr⟩

theorem Confirms.not_issuedOn {port : Port} {ledger : List Completion} {record : LogRecord}
    (h : record.Confirms port ledger) : record.issuedOn port = false := by
  obtain ⟨c, -, -, time, word, rfl⟩ := h
  exact not_issuedOn_completion c time word port

section Push
variable {first second record : LogRecord} {rest between log : List LogRecord}

/-- The records from one on, in a log with one more record. -/
theorem suffix_push (h : first :: rest <:+ log ++ [record]) :
    first = record ∧ rest = [] ∨ ∃ before, rest = before ++ [record] ∧ first :: before <:+ log := by
  rcases List.suffix_concat_iff.mp h with hn | ⟨t, ht, hs⟩
  · cases hn
  · cases t with
    | nil =>
      obtain ⟨hf, hr⟩ := List.cons.inj ht
      exact .inl ⟨hf, hr⟩
    | cons a t =>
      obtain ⟨rfl, hr⟩ := List.cons.inj ht
      exact .inr ⟨t, hr, hs⟩

/-- The records from one to another, in a log with one more record. -/
theorem infix_push (h : first :: (between ++ [second]) <:+: log ++ [record]) :
    second = record ∧ first :: between <:+ log ∨ first :: (between ++ [second]) <:+: log := by
  rcases List.infix_concat_iff.mp h with hs | hi
  · rcases suffix_push hs with ⟨-, hn⟩ | ⟨before, hb, hs⟩
    · simp at hn
    · obtain ⟨rfl, hr⟩ : between = before ∧ second = record := by simpa using hb
      exact .inl ⟨hr, hs⟩
  · exact .inr hi

end Push

namespace InTurn

variable {port : Port} {ledger ledger' : List Completion} {awaiting : Bool}
  {log : List LogRecord} {record : LogRecord}

theorem nil : InTurn port ledger awaiting [] where
  between _ _ _ h := by cases List.infix_nil.mp h
  settled _ _ _ h := by cases List.suffix_nil.mp h

theorem mono (h : InTurn port ledger awaiting log) (hl : ledger ⊆ ledger') :
    InTurn port ledger' awaiting log where
  between first between second hi hf hs := by
    obtain ⟨r, hr, hc⟩ := h.between first between second hi hf hs
    exact ⟨r, hr, hc.mono hl⟩
  settled ha first rest hi hf := by
    obtain ⟨r, hr, hc⟩ := h.settled ha first rest hi hf
    exact ⟨r, hr, hc.mono hl⟩

/-- A record that tells of no request changes nothing. -/
theorem pass (h : InTurn port ledger awaiting log) (hr : record.issuedOn port = false) :
    InTurn port ledger awaiting (log ++ [record]) where
  between first between second hi hf hs := by
    rcases infix_push hi with ⟨rfl, -⟩ | hi
    · rw [hr] at hs
      cases hs
    · exact h.between first between second hi hf hs
  settled ha first rest hi hf := by
    rcases suffix_push hi with ⟨rfl, -⟩ | ⟨before, rfl, hb⟩
    · rw [hr] at hf
      cases hf
    · obtain ⟨r, hm, hc⟩ := h.settled ha first before hb hf
      exact ⟨r, List.mem_append_left _ hm, hc⟩

/-- A request may be issued once the one before it is settled. -/
theorem issue (h : InTurn port ledger false log) : InTurn port ledger true (log ++ [record]) where
  between first between second hi hf hs := by
    rcases infix_push hi with ⟨-, hb⟩ | hi
    · exact h.settled rfl first between hb hf
    · exact h.between first between second hi hf hs
  settled := by rintro ⟨⟩

/-- A completion settles what was issued. -/
theorem confirm (h : InTurn port ledger awaiting log) (hr : record.Confirms port ledger) :
    InTurn port ledger false (log ++ [record]) where
  between := (h.pass hr.not_issuedOn).between
  settled _ first rest hi hf := by
    rcases suffix_push hi with ⟨rfl, -⟩ | ⟨before, rfl, -⟩
    · rw [hr.not_issuedOn] at hf
      cases hf
    · exact ⟨record, List.mem_append_right _ List.mem_cons_self, hr⟩

end InTurn

end LogRecord

namespace Run

variable {σ : Type} {base : List LogRecord} {c : Port} {awaiting : Bool} {r : Run σ}

/-- What a run has logged after a first part tells of requests and completions in turn. -/
def LogsInTurn (base : List LogRecord) (c : Port) (awaiting : Bool) (r : Run σ) : Prop :=
  ∃ log, r.bench.records.toList = base ++ log ∧
    LogRecord.InTurn c r.completions.toList awaiting log

namespace LogsInTurn

theorem fail (h : r.LogsInTurn base c awaiting) (f : Failure) :
    (r.fail f).LogsInTurn base c awaiting := by
  obtain ⟨log, hl, ht⟩ := h
  refine ⟨log ++ [f.record], ?_, ht.pass (LogRecord.not_issuedOn_failure f c)⟩
  simp [Run.fail, Testbench.emit, hl]

theorem complete (h : r.LogsInTurn base c awaiting) (entry : Completion) (word : Word) :
    (r.complete entry word).LogsInTurn base c (if entry.port = c then false else awaiting) := by
  obtain ⟨log, hl, ht⟩ := h
  have hmono : LogRecord.InTurn c (r.complete entry word).completions.toList awaiting log :=
    ht.mono fun e he => by simp [Run.complete, he]
  refine ⟨log ++ [entry.record r.bench.time word], by simp [Run.complete, Testbench.emit, hl], ?_⟩
  split
  · rename_i hp
    exact hmono.confirm ⟨entry, by simp [Run.complete], hp, _, _, rfl⟩
  · exact hmono.pass (LogRecord.not_issuedOn_completion entry _ word c)

theorem retire (h : r.LogsInTurn base c awaiting) (iteration : Nat) (port : Port)
    (shake : Handshake) :
    (r.retire iteration port shake).LogsInTurn base c (if port = c then false else awaiting) := by
  let free := r.withRequester port ({ · with awaiting := false })
  have hfree : free.LogsInTurn base c awaiting := h
  unfold Run.retire
  cases shake.isWrite with
  | true =>
    exact complete (r := { free with
      shadow := (r.shadow.write shake.address shake.enables shake.writeData).2 }) h
        ⟨iteration, port, shake.address, .write shake.enables shake.writeData⟩ _
  | false =>
    refine complete ?_ ⟨iteration, port, shake.address, .read shake.readData⟩ _
    split
    · exact hfree
    · exact hfree.fail _

/-- What is in turn for each port is one log. -/
theorem exists_log (h : ∀ c, ∃ awaiting, r.LogsInTurn base c awaiting) :
    ∃ log, r.bench.records.toList = base ++ log ∧
      ∀ port first between second, first :: (between ++ [second]) <:+: log →
        first.issuedOn port = true → second.issuedOn port = true →
        ∃ record ∈ between, record.Confirms port r.completions.toList := by
  obtain ⟨_, log, hl, -⟩ := h .one
  refine ⟨log, hl, fun port => ?_⟩
  obtain ⟨_, log', hl', ht⟩ := h port
  obtain rfl : log' = log := List.append_cancel_left (hl'.symm.trans hl)
  exact ht.between

end LogsInTurn

/-- The log is in turn as far as the run has come. -/
def ToldInTurn (base : List LogRecord) (c : Port) (r : Run σ) : Prop :=
  r.LogsInTurn base c (r.requesters.get c).awaiting

namespace ToldInTurn

theorem retire (h : r.ToldInTurn base c) (iteration : Nat) (port : Port) (shake : Handshake) :
    (r.retire iteration port shake).ToldInTurn base c := by
  have hr := LogsInTurn.retire h iteration port shake
  unfold ToldInTurn
  rw [requesters_retire, Table.get_modify]
  split at hr <;> rename_i hp <;> simpa only [hp, ↓reduceIte] using hr

variable [Device σ]

theorem toStimulus (h : r.ToldInTurn base c) :
    (r.withBench Testbench.toStimulus).ToldInTurn base c := by
  obtain ⟨log, hl, ht⟩ := h
  exact ⟨log, (congrArg Array.toList (Testbench.records_toStimulus r.bench)).trans hl, ht⟩

theorem toResponse (h : r.ToldInTurn base c) :
    (r.withBench Testbench.toResponse).ToldInTurn base c := by
  obtain ⟨log, hl, ht⟩ := h
  exact ⟨log, (congrArg Array.toList (Testbench.records_toResponse r.bench)).trans hl, ht⟩

theorem feed (h : r.ToldInTurn base c) (port : Port) : (r.feed port).ToldInTurn base c := by
  obtain ⟨log, hl, ht⟩ := h
  have hcompletions : (r.feed port).completions = r.completions := by rw [feed_eq]
  unfold ToldInTurn LogsInTurn
  rw [records_feed, hl, hcompletions, requesters_feed]
  by_cases hp : port = c
  · subst hp
    rw [if_pos rfl, Requester.awaiting_next]
    cases hr : (r.requesters.get port).raised? with
    | none => exact ⟨log, List.append_nil _, by rwa [Option.isSome_none, Bool.or_false]⟩
    | some request =>
      -- only a port that awaits nothing raises a request
      have ha : (r.requesters.get port).awaiting = false := by
        apply Bool.eq_false_iff.mpr
        intro ha
        rw [Requester.raised?_awaiting ha] at hr
        cases hr
      rw [ha] at ht ⊢
      exact ⟨log ++ [issueRecord port request r.bench.time], List.append_assoc .., ht.issue⟩
  · rw [if_neg hp]
    cases (r.requesters.get port).raised? with
    | none => exact ⟨log, List.append_nil _, ht⟩
    | some request =>
      refine ⟨log ++ [issueRecord port request r.bench.time], List.append_assoc .., ht.pass ?_⟩
      rw [LogRecord.issuedOn_issueRecord]
      exact decide_eq_false hp

theorem iterate (h : r.ToldInTurn base c) (k : Nat) : (r.iterate k).ToldInTurn base c :=
  iterate_keeps (fun _ hr => toStimulus hr) (fun _ port hr => feed hr port)
    (fun _ hr => toResponse hr) (fun _ f hr => LogsInTurn.fail hr f)
    (fun _ k port shake hr => retire hr k port shake) h k

end ToldInTurn

end Run

end CrossbarBench
