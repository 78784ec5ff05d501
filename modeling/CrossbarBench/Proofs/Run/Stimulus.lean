import CrossbarBench.Check.Run

/-! The stimulus phase, whatever the device answers. Each requester takes its next slot
unless it awaits an answer, and puts what the slot asks for onto its own port. Nothing is
entered into the ledger. -/

namespace CrossbarBench

namespace Requester

/-- A requester after it has been fed. -/
def next (q : Requester) : Requester :=
  if q.awaiting then q
  else match q.slots with
    | [] => { q with drained := true }
    | none :: rest => { q with slots := rest }
    | some _ :: rest => { q with slots := rest, awaiting := true }

/-- The request that a requester raises when it is fed. -/
def raised? (q : Requester) : Option Request :=
  if q.awaiting then none else q.slots.head?.join

theorem next_awaiting {q : Requester} (h : q.awaiting = true) : q.next = q := if_pos h

theorem next_empty {q : Requester} (ha : q.awaiting = false) (hs : q.slots = []) :
    q.next = { q with drained := true } := by
  simp [next, ha, hs]

theorem next_idle {q : Requester} {rest : List Slot} (ha : q.awaiting = false)
    (hs : q.slots = none :: rest) : q.next = { q with slots := rest } := by
  simp [next, ha, hs]

theorem next_request {q : Requester} {request : Request} {rest : List Slot}
    (ha : q.awaiting = false) (hs : q.slots = some request :: rest) :
    q.next = { q with slots := rest, awaiting := true } := by
  simp [next, ha, hs]

theorem raised?_awaiting {q : Requester} (h : q.awaiting = true) : q.raised? = none := if_pos h

/-- The slot that a requester takes when it is fed. -/
def taken? (q : Requester) : Option Slot := if q.awaiting then none else q.slots.head?

/-- A requester raises what the slot that it takes asks for. -/
theorem raised?_eq (q : Requester) : q.raised? = q.taken?.join := by
  unfold raised? taken?
  split <;> rfl

/-- A slot leaves the sequence only by being taken. -/
theorem taken_append_slots (q : Requester) : q.taken?.toList ++ q.next.slots = q.slots := by
  unfold taken? next
  cases q.awaiting with
  | true => rfl
  | false =>
    simp only [Bool.false_eq_true, ↓reduceIte]
    split <;> rename_i hs <;> simp [hs]

/-- A fed requester awaits what it has raised. -/
theorem awaiting_next (q : Requester) : q.next.awaiting = (q.awaiting || q.raised?.isSome) := by
  unfold next raised?
  cases ha : q.awaiting with
  | true => rw [if_pos rfl, ha, Bool.true_or]
  | false =>
    rw [if_neg Bool.false_ne_true]
    split <;> rename_i hs <;> simp [hs]

/-- A requester is found drained with nothing awaited and no slot left, and remains so. -/
theorem drained_next (q : Requester) :
    q.next.drained = true ↔ q.drained = true ∨ q.awaiting = false ∧ q.slots = [] := by
  unfold next
  cases ha : q.awaiting with
  | true => simp
  | false =>
    simp only [Bool.false_eq_true, ↓reduceIte, true_and]
    split <;> rename_i hs <;> simp [hs]

/-- What a device is given when a requester of a port is fed. -/
def actOn {σ : Type} [Device σ] (q : Requester) (port : Port) (d : σ) : σ :=
  if q.awaiting then d
  else match q.raised? with
    | some request => Device.issue d port request
    | none => Device.setRequest d port false

end Requester

namespace Run

variable {σ : Type} [Device σ]

/-! ### Port by port -/

theorem feed_awaiting {r : Run σ} {port : Port} (h : (r.requesters.get port).awaiting = true) :
    r.feed port = r := by
  simp [feed, h]

/-- A free port takes what comes next, and only its requester and the bench change. -/
theorem feed_free {r : Run σ} {port : Port} (h : (r.requesters.get port).awaiting = false) :
    ∃ records, r.feed port =
      { r with
        bench := { r.bench with
          device := (r.requesters.get port).actOn port r.bench.device, records := records }
        requesters := r.requesters.modify port Requester.next } := by
  have hm : ∀ f : Requester → Requester, f (r.requesters.get port) =
      (r.requesters.get port).next → r.requesters.modify port f =
        r.requesters.modify port Requester.next := fun f hf =>
    congrArg (r.requesters.put port) hf
  unfold feed
  cases hs : (r.requesters.get port).slots with
  | nil =>
    refine ⟨r.bench.records, ?_⟩
    simp only [h, Bool.false_eq_true, ↓reduceIte, hs, withRequester, withBench]
    rw [hm]
    · simp [Testbench.onDevice, Requester.actOn, Requester.raised?, h, hs]
    · rw [Requester.next_empty h hs]
  | cons slot rest =>
    cases slot with
    | none =>
      refine ⟨r.bench.records, ?_⟩
      simp only [h, Bool.false_eq_true, ↓reduceIte, hs, withRequester, withBench]
      rw [hm]
      · simp [Testbench.onDevice, Requester.actOn, Requester.raised?, h, hs]
      · rw [Requester.next_idle h hs]
    | some request =>
      refine ⟨r.bench.records.push (issueRecord port request r.bench.time), ?_⟩
      simp only [h, Bool.false_eq_true, ↓reduceIte, hs, withRequester, withBench]
      rw [hm]
      · simp [Testbench.onDevice, Testbench.emit, Requester.actOn, Requester.raised?, h, hs]
      · rw [Requester.next_request h hs]

theorem feed_eq (r : Run σ) (port : Port) :
    r.feed port =
      { r with
        bench := { r.bench with
          device := (r.requesters.get port).actOn port r.bench.device
          records := (r.feed port).bench.records }
        requesters := r.requesters.modify port Requester.next } := by
  cases h : (r.requesters.get port).awaiting with
  | true =>
    have hm : r.requesters.modify port Requester.next = r.requesters :=
      Table.ext_get fun c => by
        rw [Table.get_modify]
        split
        · rename_i hc
          rw [← hc, Requester.next_awaiting h]
        · rfl
    rw [feed_awaiting h, hm, Requester.actOn, if_pos h]
  | false =>
    obtain ⟨records, he⟩ := feed_free h
    rw [he]

theorem time_feed (r : Run σ) (port : Port) : (r.feed port).bench.time = r.bench.time := by
  rw [feed_eq]

theorem requesters_feed (r : Run σ) (port c : Port) :
    (r.feed port).requesters.get c =
      if port = c then (r.requesters.get c).next else r.requesters.get c := by
  rw [feed_eq]
  exact Table.get_modify r.requesters port c _

/-! ### The whole phase -/

theorem stimulate_eq (r : Run σ) :
    r.stimulate =
      (((r.withBench Testbench.toStimulus).feed .one).feed .two).feed .three := rfl

theorem stimulate_frame (r : Run σ) :
    r.stimulate =
      { r with bench := r.stimulate.bench, requesters := r.stimulate.requesters } := by
  rw [stimulate_eq, feed_eq, feed_eq, feed_eq]
  rfl

theorem requesters_stimulate (r : Run σ) (c : Port) :
    r.stimulate.requesters.get c = (r.requesters.get c).next := by
  rw [stimulate_eq, requesters_feed, requesters_feed, requesters_feed]
  rcases Port.eq_one_or_two_or_three c with rfl | rfl | rfl <;> rfl

theorem time_stimulate (r : Run σ) : r.stimulate.bench.time = r.bench.toStimulus.time := by
  rw [stimulate_eq, time_feed, time_feed, time_feed]
  rfl

/-- The ports are fed in order, each by its own requester. -/
theorem device_stimulate (r : Run σ) :
    r.stimulate.bench.device =
      Port.all.foldl (fun d port => (r.requesters.get port).actOn port d)
        r.bench.toStimulus.device := by
  rw [stimulate_eq, feed_eq, feed_eq, feed_eq]
  dsimp only
  rw [Table.get_modify, Table.get_modify, Table.get_modify]
  rfl

end Run

end CrossbarBench
