import Mathlib.Data.List.Forall2
import Mathlib.Data.List.ReduceOption
import CrossbarBench.Proofs.Crossbar.History
import CrossbarBench.Proofs.Crossbar.Protocol
import CrossbarBench.Proofs.Run.Log

/-! Every request is served once and in order. The requests of a port are at any time those
that have completed, then at most one that is raised and unacknowledged, which the registers
of the port carry, then those of the slots that are left. -/

namespace CrossbarBench

/-- The completion is what a request asks for on a port. Asked to write, the port that
cannot reads instead. -/
def Completion.Serves (port : Port) (c : Completion) (q : Request) : Prop :=
  c.port = port ∧ c.address = Word.truncate 16 q.address ∧
    if q.isWrite = true ∧ port ≠ Port.one then c.access = .write (q.enables &&& 0xF) q.data
    else ∃ data, c.access = .read data

/-- The record is that of the request at some time. -/
def LogRecord.Announces (port : Port) (record : LogRecord) (q : Request) : Prop :=
  ∃ time, record = Run.issueRecord port q time

namespace Inputs

/-- The registers of a port carry a request. What a read leaves in the data registers does
not matter. -/
structure Carries (port : Port) (q : Request) (inputs : Inputs) : Prop where
  address : inputs.address = AddressMap.standard.mask q.address
  writeEnable : inputs.writeEnable = (Crossbar.canWrite port && q.isWrite)
  written : inputs.writeEnable = true →
    inputs.enables = q.enables &&& 0xF ∧ inputs.data = q.data

/-- A read does not inherit the write enable of the request before it. -/
theorem Fits.carries_load {port : Port} {inputs : Inputs} (h : inputs.Fits port) (q : Request) :
    (inputs.load port q).Carries port q := by
  have hw : (inputs.load port q).writeEnable = (Crossbar.canWrite port && q.isWrite) := by
    unfold Inputs.load
    cases hc : Crossbar.canWrite port with
    | true => simp
    | false => simpa using (h.readOnly hc).1
  refine ⟨rfl, hw, fun ht => ?_⟩
  rw [hw] at ht
  simp [Inputs.load, ht]

theorem Carries.serves {x : Crossbar} {c : Port} {q : Request}
    (h : (x.controllers.get c).Carries c q) (k : Nat) :
    ((x.answer c).completion k c).Serves c q := by
  have hw : (x.controllers.get c).writeEnable = true ↔ q.isWrite = true ∧ c ≠ Port.one := by
    rw [h.writeEnable]
    simp [Crossbar.canWrite, and_comm]
  refine ⟨rfl, h.address, ?_⟩
  unfold Handshake.completion Crossbar.answer
  by_cases hq : q.isWrite = true ∧ c ≠ Port.one
  · obtain ⟨he, hd⟩ := h.written (hw.mpr hq)
    rw [if_pos hq]
    dsimp only
    rw [if_pos (hw.mpr hq), he, hd]
  · rw [if_neg hq]
    dsimp only
    rw [if_neg (mt hw.mp hq)]
    exact ⟨_, rfl⟩

end Inputs

/-- What a requester raises comes from the front of its slots. -/
theorem Requester.slots_next (q : Requester) :
    q.slots.reduceOption = q.raised?.toList ++ q.next.slots.reduceOption := by
  have hraised : q.taken?.toList.reduceOption = q.raised?.toList := by
    rw [raised?_eq]
    rcases q.taken? with _ | _ | request <;> rfl
  rw [← q.taken_append_slots, List.reduceOption_append, hraised]

/-- One port is answered at most once in an iteration. -/
theorem Crossbar.answers_on (x : Crossbar) (k : Nat) (c : Port) :
    (((Port.all.filter x.answered).map fun p => (x.answer p).completion k p).filter
      fun e => e.port = c) = if x.answered c then [(x.answer c).completion k c] else [] := by
  have hall : (Port.all.filter fun p => decide (p = c) && x.answered p) =
      if x.answered c then [c] else [] := by
    rcases Port.eq_one_or_two_or_three c with rfl | rfl | rfl <;>
      simp +decide [Port.all, List.filter_cons]
  have hport : ((fun e : Completion => decide (e.port = c)) ∘ fun p =>
      (x.answer p).completion k p) = fun p => decide (p = c) := rfl
  rw [List.filter_map, List.filter_filter, hport, hall]
  split <;> rfl

namespace Run

variable {r : Run Crossbar} {k : Nat} {c : Port}

theorem Landed.completions_iterate_on (h : r.Landed) (k : Nat) (c : Port) :
    ((r.iterate k).completions.toList.filter fun e => e.port = c) =
      (r.completions.toList.filter fun e => e.port = c) ++
        if (r.iterate k).bench.device.answered c then
          [((r.iterate k).bench.device.answer c).completion k c]
        else [] := by
  rw [← Crossbar.answers_on, ← h.entries_iterate, Run.iterate, completions_respond,
    List.filter_append, stimulate_frame]

/-- Port `c` has completed the requests in `served`, and `pending` is the one it awaits the
answer of. The records of both follow the old ones in the log. -/
structure Progress (c : Port) (requests : List Request) (old : List LogRecord)
    (served : List Request) (pending : Option Request) (r : Run Crossbar) : Prop where
  split : requests = served ++ pending.toList ++ (r.requesters.get c).slots.reduceOption
  awaiting : (r.requesters.get c).awaiting = pending.isSome
  carried : ∀ q, pending = some q → (r.bench.device.controllers.get c).Carries c q
  completed : List.Forall₂ (Completion.Serves c)
    (r.completions.toList.filter fun e => e.port = c) served
  announced : ∃ issued, r.bench.issuesOn c = old ++ issued ∧
    List.Forall₂ (LogRecord.Announces c) issued (served ++ pending.toList)

namespace Progress

variable {requests served : List Request} {old : List LogRecord} {pending : Option Request}

theorem launch {b : Testbench Crossbar} (map : AddressMap) (s : Scenario) (c : Port) :
    (b.launch map s).Progress c (s.sequences.get c).reduceOption (b.issuesOn c) [] none := by
  have hq := b.get_requesters_launch map s c
  have hrec : (b.launch map s).bench.issuesOn c = b.issuesOn c := by
    rw [Testbench.issuesOn, Testbench.records_launch, Testbench.issuesOn]
  refine ⟨by rw [hq]; rfl, by rw [hq]; rfl, by rintro _ ⟨⟩, .nil, [], ?_, .nil⟩
  rw [hrec, List.append_nil]

/-- What is raised after a feed is what was pending, or else the next request. -/
theorem toList_raised (h : r.Progress c requests old served pending) :
    (pending.or (r.requesters.get c).raised?).toList =
      pending.toList ++ (r.requesters.get c).raised?.toList := by
  cases pending with
  | none => rfl
  | some q => rw [Requester.raised?_awaiting h.awaiting]; rfl

theorem awaiting_next (h : r.Progress c requests old served pending) :
    (r.requesters.get c).next.awaiting = (pending.or (r.requesters.get c).raised?).isSome := by
  rw [Requester.awaiting_next, h.awaiting, Option.isSome_or]

theorem carries_load (h : r.Progress c requests old served pending)
    (hf : (r.bench.device.controllers.get c).Fits c) {q : Request}
    (hq : pending.or (r.requesters.get c).raised? = some q) :
    ((r.requesters.get c).load c (r.bench.device.controllers.get c)).Carries c q := by
  cases pending with
  | none => rw [Requester.load_raised hq]; exact hf.carries_load q
  | some p => rw [Requester.load_awaiting h.awaiting]; exact h.carried q hq

theorem announced_iterate (h : r.Progress c requests old served pending) (k : Nat) :
    ∃ issued, (r.iterate k).bench.issuesOn c = old ++ issued ∧
      List.Forall₂ (LogRecord.Announces c) issued
        (served ++ (pending.or (r.requesters.get c).raised?).toList) := by
  obtain ⟨issued, ho, hi⟩ := h.announced
  refine ⟨_, (issuesOn_iterate r k c).trans (by rw [ho, List.append_assoc]), ?_⟩
  rw [h.toList_raised, ← List.append_assoc]
  refine List.rel_append hi ?_
  cases (r.requesters.get c).raised? with
  | none => exact .nil
  | some q => exact .cons ⟨_, rfl⟩ .nil

/-- An iteration completes what is raised on a port if its memory answers, and nothing on it
otherwise. -/
theorem iterate (h : r.Progress c requests old served pending) (hs : r.InStep) (k : Nat) :
    ∃ served pending, (r.iterate k).Progress c requests old served pending := by
  have hn := hs.landed.requesters_iterate k c
  have hc := hs.landed.completions_iterate_on k c
  have hsplit : requests = served ++ (pending.or (r.requesters.get c).raised?).toList ++
      ((r.iterate k).requesters.get c).slots.reduceOption := by
    rw [hn, h.toList_raised, h.split, Requester.slots_next]
    simp only [List.append_assoc]
  have hcarry : ∀ q, pending.or (r.requesters.get c).raised? = some q →
      ((r.iterate k).bench.device.controllers.get c).Carries c q := fun q hq => by
    rw [controllers_iterate]
    exact h.carries_load (hs.landed.fits c) hq
  cases ha : (r.iterate k).bench.device.answered c with
  | false =>
    refine ⟨served, _, hsplit, ?_, hcarry, ?_, h.announced_iterate k⟩
    · rw [hn, ha, ← h.awaiting_next]
      exact Bool.and_true _
    · rw [hc, ha]
      simpa using h.completed
  | true =>
    -- only a raised request is answered
    obtain ⟨q, hq⟩ : ∃ q, pending.or (r.requesters.get c).raised? = some q := by
      rw [← Option.isSome_iff_exists, ← h.awaiting_next, ← hs.request_iterate k c]
      exact ((Crossbar.answered_iff _ c).mp ha).1
    refine ⟨served ++ [q], none, ?_, ?_, nofun, ?_, ?_⟩
    · rw [hsplit, hq]
      simp
    · rw [hn, ha]
      exact Bool.and_false _
    · rw [hc, ha, if_pos rfl]
      exact List.rel_append h.completed (.cons ((hcarry q hq).serves k) .nil)
    · have hk := h.announced_iterate k
      rw [hq] at hk
      simpa using hk

end Progress

/-- Every port of a run is in progress, from the records that the bench had before it. -/
structure Serving (s : Scenario) (b : Testbench Crossbar) (r : Run Crossbar) : Prop where
  inStep : r.InStep
  progress : ∀ c, ∃ served pending,
    r.Progress c (s.sequences.get c).reduceOption (b.issuesOn c) served pending

namespace Serving

variable {s : Scenario} {b : Testbench Crossbar}

theorem launch (hb : b.Reached) (s : Scenario) : (b.launch .standard s).Serving s b :=
  ⟨.launch hb.device.fits .standard s, fun c => ⟨[], none, .launch .standard s c⟩⟩

theorem iterate (h : r.Serving s b) (k : Nat) : (r.iterate k).Serving s b where
  inStep := h.inStep.iterate k
  progress c := by
    obtain ⟨served, pending, hp⟩ := h.progress c
    exact hp.iterate h.inStep k

end Serving

end Run

namespace Testbench

/-- The completions on a port are, one for one and in order, the requests at the front of its
sequence. Past them at most one was issued, and in a run that ends there are none. -/
theorem perform_serves_in_order {b : Testbench Crossbar} (hb : b.Reached) (s : Scenario) :
    ∃ report bench, b.perform s = .ok (report, bench) ∧
      ∀ port, ∃ (served : List Request) (pending : Option Request) (unissued : List Request),
        (s.sequences.get port).reduceOption = served ++ pending.toList ++ unissued ∧
        List.Forall₂ (Completion.Serves port) (report.completionsOn port) served ∧
        (∃ issued, bench.issuesOn port = b.issuesOn port ++ issued ∧
          List.Forall₂ (LogRecord.Announces port) issued (served ++ pending.toList)) ∧
        (report.outcome = .done → pending = none ∧ unissued = []) := by
  rcases perform_ends (P := fun _ r => r.Serving s b) (s := s) rfl (.launch hb s)
    (fun k _ h _ => h.iterate k) with ⟨n, r, -, -, h, hd, hp⟩ | ⟨n, r, -, h, hp⟩
  · have hr := h.iterate n
    refine ⟨_, _, hp, fun port => ?_⟩
    obtain ⟨served, pending, hport⟩ := hr.progress port
    have hdrained := (r.iterate n).allDrained_iff.mp hd port
    have hslots := (hr.inStep.drained port hdrained).2
    have hpending : pending = none := by
      have ha := hr.inStep.not_awaiting_of_drained hdrained
      rw [hport.awaiting] at ha
      simpa using ha
    refine ⟨served, pending, _, hport.split, hport.completed, hport.announced, fun _ => ?_⟩
    exact ⟨hpending, by rw [hslots]; rfl⟩
  · refine ⟨_, _, hp, fun port => ?_⟩
    obtain ⟨served, pending, hport⟩ := h.progress port
    refine ⟨served, pending, _, hport.split, hport.completed, ?_, by rintro ⟨⟩⟩
    obtain ⟨issued, ho, hi⟩ := hport.announced
    exact ⟨issued, (Run.issuesOn_fail r _ port).trans ho, hi⟩

/-- Three ports contend for a word, one of them for a write that it cannot make, on a bench
that has a request of its own raised. -/
theorem perform_serves_in_order_of_contended :
    let b := (new Crossbar.initial).after
      [.setRequest .two true, .driveWrite .two 0x5 7, .device (.withSpuriousReady .one)]
    let s := { Scenario.blank "contended" with
      sequences := #v[[some (.write 0x18001 0xF 1)], [none, some (.write 0x8001 0x3 2)],
        [some (.read 0x8001), some (.write 0x8001 0xF 3)]] }
    b.Reached ∧
    ∃ report bench, b.perform s = .ok (report, bench) ∧
      ∀ port, ∃ (served : List Request) (pending : Option Request) (unissued : List Request),
        (s.sequences.get port).reduceOption = served ++ pending.toList ++ unissued ∧
        List.Forall₂ (Completion.Serves port) (report.completionsOn port) served ∧
        (∃ issued, bench.issuesOn port = b.issuesOn port ++ issued ∧
          List.Forall₂ (LogRecord.Announces port) issued (served ++ pending.toList)) ∧
        (report.outcome = .done → pending = none ∧ unissued = []) :=
  have hb := ⟨Crossbar.initial, _, ⟨[], rfl⟩, rfl⟩
  ⟨hb, perform_serves_in_order hb _⟩

end Testbench

end CrossbarBench
