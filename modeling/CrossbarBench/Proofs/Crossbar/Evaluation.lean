import CrossbarBench.Proofs.Crossbar.Clocking
import CrossbarBench.Proofs.Crossbar.History

/-! Evaluating a crossbar more often than it takes. Registers change on an evaluation only where
the clock has risen since the one before, and they never depend on the outputs. So an evaluation at
a level that has been seen already leaves nothing behind but its outputs, and the next one settles
these anew. -/

namespace CrossbarBench

namespace Crossbar

variable {x y z : Crossbar}

/-! ### Between two evaluations -/

/-- What calls leave alone as long as there is no evaluation: the clock level that was seen, the
outputs, and all of a memory but its delay. -/
structure Unevaluated (x y : Crossbar) : Prop where
  lastClock : y.lastClock = x.lastClock
  ready : y.ready = x.ready
  readData : y.readData = x.readData
  memory : ∀ p, ∃ delay, y.memories.get p = { x.memories.get p with delay := delay }

namespace Unevaluated

theorem refl (x : Crossbar) : x.Unevaluated x := ⟨rfl, rfl, rfl, fun _ => ⟨_, rfl⟩⟩

theorem trans (h : x.Unevaluated y) (h' : y.Unevaluated z) : x.Unevaluated z where
  lastClock := h'.lastClock.trans h.lastClock
  ready := h'.ready.trans h.ready
  readData := h'.readData.trans h.readData
  memory p := by
    obtain ⟨first, hm⟩ := h.memory p
    obtain ⟨delay, hm'⟩ := h'.memory p
    exact ⟨delay, by rw [hm', hm]⟩

theorem call (x : Crossbar) {call : Call} (h : call ≠ .eval) : x.Unevaluated (call.apply x) := by
  have hm : ∀ p, ∃ delay,
      (call.apply x).memories.get p = { x.memories.get p with delay := delay } := by
    intro p
    rcases memory_cases x call p with hm | ⟨he, -⟩ | ⟨delay, -, hm⟩
    · exact ⟨_, hm⟩
    · exact absurd he h
    · exact ⟨delay, hm⟩
  cases call with
  | eval => exact absurd rfl h
  | setDelay peripheral delay =>
    rw [Call.apply, setDelay] at hm ⊢
    split
    · rename_i hp
      rw [dif_pos hp] at hm
      exact ⟨rfl, rfl, rfl, hm⟩
    · exact refl x
  | drive port signal value =>
    rw [Call.apply, drive]
    split
    · exact refl x
    · exact ⟨rfl, rfl, rfl, fun _ => ⟨_, rfl⟩⟩
  | setClock | setReset | dump | withTrace | withCorruption | withSpuriousReady =>
    exact ⟨rfl, rfl, rfl, hm⟩

theorem after {calls : List Call} (h : .eval ∉ calls) (x : Crossbar) :
    x.Unevaluated (x.after calls) := by
  induction calls generalizing x with
  | nil => exact refl x
  | cons call calls ih =>
    have hne : call ≠ .eval := fun he => h (he ▸ List.mem_cons_self)
    exact (Unevaluated.call x hne).trans (ih (fun hm => h (List.mem_cons_of_mem _ hm)) _)

end Unevaluated

/-! ### Agreement -/

/-- The two crossbars agree in all but their outputs and what has been dumped of them. -/
structure SameState (x y : Crossbar) : Prop where
  clock : x.clock = y.clock
  lastClock : x.lastClock = y.lastClock
  memories : x.memories = y.memories
  setup : x.SameSetup y

/-- So do their outputs. -/
structure SameSignals (x y : Crossbar) : Prop extends SameState x y where
  ready : x.ready = y.ready
  readData : x.readData = y.readData

namespace SameState

theorem readyLevel (h : x.SameState y) : x.readyLevel = y.readyLevel := by
  funext c
  simp only [Crossbar.readyLevel, answered, h.memories, h.setup.controllers, h.setup.spurious]

theorem readWord (h : x.SameState y) : x.readWord = y.readWord := by
  funext c
  have ha : x.answered c = y.answered c := by
    rw [answered, answered, h.memories, h.setup.controllers]
  rw [Crossbar.readWord, Crossbar.readWord, ha, h.memories, h.setup.controllers,
    h.setup.corruption]

theorem eval (h : x.SameState y) : x.eval.SameState y.eval where
  clock := by rw [clock_eval, clock_eval, h.clock]
  lastClock := by rw [lastClock_eval, lastClock_eval, h.clock]
  memories := by
    rw [memories_eval, memories_eval, h.clock, h.lastClock, h.setup.edge_congr h.memories,
      h.memories]
  setup := (SameSetup.eval x).trans (h.setup.trans (SameSetup.eval y).symm)

/-- The outputs are settled by what the two agree in. -/
theorem signals_eval (h : x.SameState y) : x.eval.SameSignals y.eval where
  toSameState := h.eval
  ready := by rw [(settled_eval x).ready, (settled_eval y).ready, h.eval.readyLevel]
  readData := by rw [(settled_eval x).readData, (settled_eval y).readData, h.eval.readWord]

theorem setDelay (h : x.SameState y) (peripheral delay : Nat) :
    (x.setDelay peripheral delay).SameState (y.setDelay peripheral delay) := by
  unfold Crossbar.setDelay
  split
  · have hm := congrArg (Table.modify · ⟨peripheral, ‹_›⟩ ({ · with delay := delay })) h.memories
    exact ⟨h.clock, h.lastClock, hm,
      ⟨h.setup.controllers, h.setup.resetLevel, fun p => congrArg (fun t => (t.get p).delay) hm,
        h.setup.corruption, h.setup.spurious⟩⟩
  · exact h

theorem drive (h : x.SameState y) (port : Port) (signal : Signal) (value : Word) :
    (x.drive port signal value).SameState (y.drive port signal value) := by
  unfold Crossbar.drive
  split
  · exact h
  · have hc := congrArg (Table.modify · port (·.latch value signal)) h.setup.controllers
    exact ⟨h.clock, h.lastClock, h.memories, { h.setup with controllers := hc }⟩

theorem call (h : x.SameState y) (call : Call) : (call.apply x).SameState (call.apply y) := by
  cases call with
  | eval => exact h.eval
  | setClock high => exact ⟨rfl, h.lastClock, h.memories, { h.setup with }⟩
  | setReset high => exact ⟨h.clock, h.lastClock, h.memories, { h.setup with resetLevel := rfl }⟩
  | setDelay peripheral delay => exact h.setDelay peripheral delay
  | drive port signal value => exact h.drive port signal value
  | dump | withTrace => exact ⟨h.clock, h.lastClock, h.memories, { h.setup with }⟩
  | withCorruption mask =>
    exact ⟨h.clock, h.lastClock, h.memories, { h.setup with corruption := rfl }⟩
  | withSpuriousReady port =>
    exact ⟨h.clock, h.lastClock, h.memories, { h.setup with spurious := rfl }⟩

theorem after (h : x.SameState y) (calls : List Call) :
    (x.after calls).SameState (y.after calls) :=
  after_rel call h calls

end SameState

namespace SameSignals

theorem call (h : x.SameSignals y) (call : Call) : (call.apply x).SameSignals (call.apply y) := by
  by_cases he : call = .eval
  · subst he
    exact h.signals_eval
  · have hx := Unevaluated.call x he
    have hy := Unevaluated.call y he
    exact ⟨h.toSameState.call call, hx.ready.trans (h.ready.trans hy.ready.symm),
      hx.readData.trans (h.readData.trans hy.readData.symm)⟩

theorem after (h : x.SameSignals y) (calls : List Call) :
    (x.after calls).SameSignals (y.after calls) :=
  after_rel call h calls

/-- Nothing that is read tells the two apart. -/
theorem read (h : x.SameSignals y) (port : Port) (signal : Signal) :
    x.read port signal = y.read port signal := by
  simp only [Crossbar.read, h.setup.controllers, h.ready, h.readData]

end SameSignals

/-- Once there is an evaluation the outputs agree again. -/
theorem SameState.signals_after (h : x.SameState y) {calls : List Call} (hm : .eval ∈ calls) :
    (x.after calls).SameSignals (y.after calls) := by
  obtain ⟨before, later, rfl⟩ := List.append_of_mem hm
  rw [after_append, after_append]
  exact (h.after before).signals_eval.after later

/-! ### One evaluation more -/

/-- An evaluation at a level that has been seen changes nothing but the outputs. -/
theorem sameState_eval (h : x.lastClock = x.clock) : x.eval.SameState x where
  clock := clock_eval x
  lastClock := (lastClock_eval x).trans h.symm
  memories := memories_eval_of_seen h
  setup := SameSetup.eval x

/-- Nor these, where they have been settled. -/
theorem eval_of_settled (h : x.lastClock = x.clock) (hs : x.Settled) : x.eval = x := by
  have hquiet : (x.clock && !x.lastClock) = false := by rw [h, Bool.and_not_self]
  have hseen : { x with lastClock := x.clock } = x :=
    congrArg (fun level => { x with lastClock := level }) h.symm
  have hsettle : x.settle = x := by rw [settle, ← hs.ready, ← hs.readData]
  rw [eval, hquiet, if_neg Bool.false_ne_true, hseen, hsettle]

theorem eval_eval (x : Crossbar) : x.eval.eval = x.eval :=
  eval_of_settled ((lastClock_eval x).trans (clock_eval x).symm) (settled_eval x)

/-- A new crossbar stands as if it had been evaluated. -/
theorem eval_initial : initial.eval = initial := by
  have hready : initial.ready = Vector.ofFn initial.readyLevel := by decide
  have hdata : initial.readData = Vector.ofFn initial.readWord := by decide
  exact eval_of_settled rfl ⟨hready, hdata⟩

/-- The update of an evaluation is made where it finds the clock high after the one before has
found it low, however the clock was set in between. -/
theorem memories_eval_since (x : Crossbar) {since : List Call} (hs : .eval ∉ since) :
    let y := x.eval.after since
    y.eval.memories = if x.clock = false ∧ y.clock = true then y.edge.memories else y.memories := by
  intro y
  have hseen : y.lastClock = x.clock :=
    (Unevaluated.after hs x.eval).lastClock.trans (lastClock_eval x)
  rw [memories_eval, hseen]
  cases x.clock <;> cases y.clock <;> rfl

/-- An evaluation more, at any point where the clock stands as it was evaluated last, is harmless.
It leaves the memories as they are at every later point, and nothing that is read after the next
evaluation tells of it. In particular a second evaluation in a row changes nothing, nor does a first
one of a new crossbar. From one evaluation to the next all of a memory but its delay stays as it is,
and the next one makes a single update where the clock has gone from low to high, and none
elsewhere. -/
theorem eval_once_more (x : Crossbar) {since : List Call} (hs : .eval ∉ since) :
    let y := x.eval.after since
    (y.clock = x.clock → ∀ later,
      let plain := x.eval.after (since ++ later)
      let more := x.eval.after (since ++ .eval :: later)
      more.memories = plain.memories ∧ more.clock = plain.clock ∧
        (.eval ∈ later → ∀ port signal, more.read port signal = plain.read port signal)) ∧
    (x.eval.eval = x.eval ∧ initial.eval = initial) ∧
    (∀ p, ∃ delay, y.memories.get p = { x.eval.memories.get p with delay := delay }) ∧
    y.eval.memories =
      if x.clock = false ∧ y.clock = true then y.edge.memories else y.memories := by
  intro y
  have hy := Unevaluated.after hs x.eval
  refine ⟨fun hc later => ?_, ⟨eval_eval x, eval_initial⟩, hy.memory, memories_eval_since x hs⟩
  have hseen : y.lastClock = y.clock := hy.lastClock.trans ((lastClock_eval x).trans hc.symm)
  have hsame : y.eval.SameState y := sameState_eval hseen
  have hafter := hsame.after later
  intro plain more
  have hplain : plain = y.after later := after_append _ _ _
  have hmore : more = y.eval.after later := after_append _ _ _
  rw [hplain, hmore]
  exact ⟨hafter.memories, hafter.clock, fun hm => (hsame.signals_after hm).read⟩

/-- The clock falls and rises unseen while the delay of a granted memory is raised. The evaluation
more shows that at once, and the next one as well. -/
theorem eval_once_more_of_granted :
    let x := initial.after [.drive .two .request 1, .setClock true]
    let since : List Call := [.setClock false, .setDelay 0 1, .setClock true]
    let later : List Call := [.setClock false, .eval, .setClock true, .eval]
    let y := x.eval.after since
    let plain := x.eval.after (since ++ later)
    let more := x.eval.after (since ++ .eval :: later)
    (.eval ∉ since ∧ y.clock = x.clock ∧ .eval ∈ later) ∧
    y.eval.read .two .ready ≠ y.read .two .ready ∧
    (more.memories = plain.memories ∧ more.clock = plain.clock ∧
      ∀ port signal, more.read port signal = plain.read port signal) ∧
    (x.eval.eval = x.eval ∧ initial.eval = initial) ∧
    (∀ p, ∃ delay, y.memories.get p = { x.eval.memories.get p with delay := delay }) ∧
    y.eval.memories =
      if x.clock = false ∧ y.clock = true then y.edge.memories else y.memories := by
  intro x since later y plain more
  have hs : .eval ∉ since := by simp [since]
  have hc : y.clock = x.clock := rfl
  have hm : .eval ∈ later := by simp [later]
  obtain ⟨hmore, hrest⟩ := eval_once_more x hs
  obtain ⟨hmemories, hclock, hread⟩ := hmore hc later
  exact ⟨⟨hs, hc, hm⟩, by decide +kernel, ⟨hmemories, hclock, hread hm⟩, hrest⟩

end Crossbar

end CrossbarBench
