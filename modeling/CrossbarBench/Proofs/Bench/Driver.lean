import CrossbarBench.Proofs.Bench.Edges

/-! The clock driver over the whole life of a bench, for any device whose clock reads as it was
last set. All that it does is made of half cycles, each the edge to the other level, and of changes
of the reset input. So in any order of its steps a rising edge takes two units of time and a falling
one eight, and the device is evaluated only to be dumped, each time later than before. -/

namespace CrossbarBench

namespace Device.Call

/-- Every evaluation is dumped right after it, and nothing else is dumped. -/
def paired : List Call → Bool
  | [] => true
  | .eval :: .dump _ :: calls => paired calls
  | .eval :: _ => false
  | .dump _ :: _ => false
  | .setClock _ :: calls => paired calls
  | .setReset _ :: calls => paired calls
  | .setDelay _ _ :: calls => paired calls
  | .drive _ _ _ :: calls => paired calls

/-- The time of a dump. -/
def dumpTime? : Call → Option Nat
  | .dump time => some time
  | .eval | .setClock _ | .setReset _ | .setDelay _ _ | .drive _ _ _ => none

theorem paired_append {calls more : List Call} (h : paired calls = true)
    (hm : paired more = true) : paired (calls ++ more) = true := by
  fun_induction paired calls with
  | case1 => exact hm
  | case2 time calls ih => exact ih h
  | case3 => cases h
  | case4 => cases h
  | case5 high calls ih => exact ih h
  | case6 high calls ih => exact ih h
  | case7 peripheral delay calls ih => exact ih h
  | case8 port signal value calls ih => exact ih h

end Device.Call

/-- When a device on record was dumped. -/
def Recorder.dumpTimes {σ : Type} (r : Recorder σ) : List Nat :=
  r.calls.filterMap Device.Call.dumpTime?

namespace Testbench

/-- What a clock driver can be asked for. -/
inductive Step where
  | toStimulus
  | toResponse
  | cycles (n : Nat)
  | reset

variable {σ : Type} [Device σ]

def Step.run (b : Testbench σ) : Step → Testbench σ
  | .toStimulus => b.toStimulus
  | .toResponse => b.toResponse
  | .cycles n => Testbench.cycles n b
  | .reset => b.reset

/-- The bench after steps in order. -/
def advance (b : Testbench σ) (steps : List Step) : Testbench σ := steps.foldl Step.run b

/-- A device cannot tell that it is recorded while the clock is driven. -/
theorem advance_map {τ : Type} [Device τ] {f : σ → τ} (hom : Device.Hom f) (b : Testbench σ)
    (steps : List Step) : (b.map f).advance steps = (b.advance steps).map f := by
  have hstep : ∀ (b : Testbench σ) (step : Step), step.run (b.map f) = (step.run b).map f := by
    intro b step
    cases step with
    | toStimulus => exact hom.toStimulus b
    | toResponse => exact hom.toResponse b
    | cycles n => exact hom.cycles n b
    | reset => exact hom.reset b
  exact List.foldl_hom (Testbench.map f) hstep

/-- All that the clock driver is made of keeps the property: a half cycle to the level at which
the clock is not, and a change of the reset input. -/
structure Driven (Q : Testbench σ → Prop) : Prop where
  rise : ∀ b, Device.clock b.device = false → Q b → Q b.rise
  fall : ∀ b, Device.clock b.device = true → Q b → Q b.fall
  setReset : ∀ b high, Q b → Q (b.onDevice (Device.setReset · high))

namespace Driven

variable {Q : Testbench σ → Prop} {b : Testbench σ}

theorem toStimulus (h : Driven Q) (kept : Device.ClockKept σ) (hb : Q b) : Q b.toStimulus := by
  unfold Testbench.toStimulus
  cases hc : Device.clock b.device with
  | false => exact h.rise b hc hb
  | true => exact h.rise b.fall (kept.clock_halfCycle b false 4) (h.fall b hc hb)

theorem toResponse (h : Driven Q) (kept : Device.ClockKept σ) (hb : Q b) : Q b.toResponse := by
  unfold Testbench.toResponse
  cases hc : Device.clock b.device with
  | false => exact h.fall b.rise (kept.clock_halfCycle b true 1) (h.rise b hc hb)
  | true => exact h.fall b hc hb

theorem cycles (h : Driven Q) (kept : Device.ClockKept σ) (n : Nat) (hb : Q b) :
    Q (Testbench.cycles n b) := by
  induction n generalizing b with
  | zero => exact hb
  | succ n ih =>
    apply ih
    unfold Testbench.cycle
    split
    · exact h.toStimulus kept (h.toResponse kept hb)
    · exact h.toResponse kept (h.toStimulus kept hb)

theorem reset (h : Driven Q) (kept : Device.ClockKept σ) (hb : Q b) : Q b.reset := by
  have hlow := h.cycles kept 10 (h.setReset _ false (h.toStimulus kept hb))
  exact h.cycles kept 10 (h.setReset _ true hlow)

theorem advance (h : Driven Q) (kept : Device.ClockKept σ) (hb : Q b) (steps : List Step) :
    Q (b.advance steps) := by
  induction steps generalizing b with
  | nil => exact hb
  | cons step steps ih =>
    apply ih
    cases step with
    | toStimulus => exact h.toStimulus kept hb
    | toResponse => exact h.toResponse kept hb
    | cycles n => exact h.cycles kept n hb
    | reset => exact h.reset kept hb

end Driven

/-! ### The life of a bench -/

/-- A bench whose device is on record from the start. Time has passed since the last dump, so the
next one comes later. -/
structure Timed (start : Bool) (b : Testbench (Recorder σ)) : Prop where
  shown : ∃ level edges, b.device.Shown start level edges ∧
    b.time = 1 + 2 * Edge.rises edges + 8 * Edge.falls edges
  paired : Device.Call.paired b.device.calls = true
  first : b.device.dumpTimes.head? = some 0
  increasing : b.device.dumpTimes.Pairwise (· < ·)
  past : ∀ t ∈ b.device.dumpTimes, t < b.time

theorem calls_halfCycle (b : Testbench (Recorder σ)) (high : Bool) (passing : Nat) :
    (b.halfCycle high passing).device.calls = b.device.calls ++
      [.eval, .dump b.time, .setClock high, .eval, .dump (b.time + passing)] := by
  change (((((b.device.call .eval).call (.dump b.time)).call (.setClock high)).call .eval).call
    (.dump (b.time + passing))).calls = _
  simp [Recorder.call]

theorem dumpTimes_halfCycle (b : Testbench (Recorder σ)) (high : Bool) (passing : Nat) :
    (b.halfCycle high passing).device.dumpTimes =
      b.device.dumpTimes ++ [b.time, b.time + passing] := by
  rw [Recorder.dumpTimes, calls_halfCycle, List.filterMap_append]
  rfl

/-- A new bench evaluates the device once, and so shows it the level at which its clock stands. -/
theorem shown_new (kept : Device.ClockKept σ) (d : σ) :
    (new (⟨d, []⟩ : Recorder σ)).device.Shown (Device.clock d) none [] := by
  have hstart : Recorder.Shown (Device.clock d) none [] (⟨d, []⟩ : Recorder σ) := rfl
  exact (hstart.eval kept).call (kept.dump _ 0) fun _ => rfl

namespace Timed

variable {start : Bool} {b : Testbench (Recorder σ)}

theorem halfCycle (h : b.Timed start) (kept : Device.ClockKept σ) (high : Bool)
    (hc : Device.clock b.device = !high) {passing : Nat}
    (hp : passing = if high then 1 else 4) : (b.halfCycle high passing).Timed start := by
  have hpos : 0 < passing := by
    rw [hp]
    split <;> decide
  have hdumps := dumpTimes_halfCycle b high passing
  refine ⟨?_, ?_, ?_, ?_, fun t ht => ?_⟩
  · obtain ⟨level, edges, hs, htime⟩ := h.shown
    refine ⟨_, _, hs.edge kept high hc passing, ?_⟩
    rw [time_halfCycle, htime, hp, Edge.rises_append, Edge.falls_append]
    cases high <;> simp [Edge.rises, Edge.falls] <;> omega
  · rw [calls_halfCycle]
    exact Device.Call.paired_append h.paired rfl
  · rw [hdumps, List.head?_append, h.first]
    rfl
  · rw [hdumps, List.pairwise_append]
    refine ⟨h.increasing, by simpa using hpos, fun t ht u hu => ?_⟩
    have hlt := h.past t ht
    rcases List.mem_pair.mp hu with rfl | rfl <;> omega
  · rw [time_halfCycle]
    rw [hdumps, List.mem_append, List.mem_pair] at ht
    rcases ht with ht | rfl | rfl
    · have hlt := h.past t ht
      omega
    · omega
    · omega

theorem setReset (h : b.Timed start) (kept : Device.ClockKept σ) (high : Bool) :
    (b.onDevice (Device.setReset · high)).Timed start := by
  obtain ⟨level, edges, hs, htime⟩ := h.shown
  have hdumps : (Device.setReset b.device high).dumpTimes = b.device.dumpTimes := by
    change (b.device.calls ++ [Device.Call.setReset high]).filterMap Device.Call.dumpTime? = _
    rw [List.filterMap_append]
    exact List.append_nil _
  exact {
    shown := ⟨_, edges, hs.setReset kept high, htime⟩
    paired := Device.Call.paired_append h.paired rfl
    first := (congrArg List.head? hdumps).trans h.first
    increasing := hdumps ▸ h.increasing
    past := hdumps ▸ h.past }

theorem driven (kept : Device.ClockKept σ) (start : Bool) :
    Driven (Timed (σ := σ) start) where
  rise _ hc hb := hb.halfCycle kept true hc rfl
  fall _ hc hb := hb.halfCycle kept false hc rfl
  setReset _ high hb := hb.setReset kept high

theorem new (kept : Device.ClockKept σ) (d : σ) :
    (Testbench.new (⟨d, []⟩ : Recorder σ)).Timed (Device.clock d) where
  shown := ⟨none, [], shown_new kept d, rfl⟩
  paired := rfl
  first := rfl
  increasing := List.pairwise_singleton _ _
  past t ht := by
    rw [List.mem_singleton.mp ht]
    exact Nat.one_pos

end Timed

/-- No step leaves the reset input low. -/
theorem released_advance {start : Bool} {b : Testbench (Recorder σ)} {level : Option Bool}
    {edges : List Edge} (kept : Device.ClockKept σ) (hs : b.device.Shown start level edges)
    (hl : level ≠ some false) (steps : List Step) :
    ∃ level edges, (b.advance steps).device.Shown start level edges ∧ level ≠ some false := by
  induction steps generalizing b level edges with
  | nil => exact ⟨level, edges, hs, hl⟩
  | cons step steps ih =>
    cases step with
    | toStimulus => exact ih (hs.toStimulus kept) hl
    | toResponse => exact ih (hs.toResponse kept) hl
    | cycles n => exact ih (hs.cycles n kept).2 hl
    | reset => exact ih (hs.reset kept).2 (by decide)

/-- A bench that has obeyed its clock since that stood at a level, after these edges. The device has
seen its clock as it stands, and a further step shows it the edges of its kind and ends in its
phase; a reset shows ten cycles with the reset input low and ten more with it high again. Time has
passed by two for a rising edge and by eight for a falling one. Every evaluation has been dumped,
the first one at time zero and each later than the one before. -/
structure ObeysClock (start : Bool) (level : Option Bool) (edges : List Edge)
    (b : Testbench (Recorder σ)) : Prop where
  shown : b.device.Shown start level edges
  released : level ≠ some false
  toStimulus : Device.clock b.toStimulus.device = true ∧
    Edge.rises (Edge.landing (Device.clock b.device) true level) = 1 ∧
    b.toStimulus.device.Shown start level (edges ++ Edge.landing (Device.clock b.device) true level)
  toResponse : Device.clock b.toResponse.device = false ∧
    Edge.falls (Edge.landing (Device.clock b.device) false level) = 1 ∧
    b.toResponse.device.Shown start level
      (edges ++ Edge.landing (Device.clock b.device) false level)
  cycles : ∀ n, Device.clock (Testbench.cycles n b).device = Device.clock b.device ∧
    Edge.rises (Edge.cycles (Device.clock b.device) level n) = n ∧
    Edge.falls (Edge.cycles (Device.clock b.device) level n) = n ∧
    (Testbench.cycles n b).device.Shown start level
      (edges ++ Edge.cycles (Device.clock b.device) level n)
  reset : Device.clock b.reset.device = true ∧
    Edge.rises (Edge.cycles true (some false) 10) = 10 ∧
    Edge.rises (Edge.cycles true (some true) 10) = 10 ∧
    b.reset.device.Shown start (some true)
      (edges ++ Edge.landing (Device.clock b.device) true level ++
        Edge.cycles true (some false) 10 ++ Edge.cycles true (some true) 10)
  time : b.time = 1 + 2 * Edge.rises edges + 8 * Edge.falls edges
  paired : Device.Call.paired b.device.calls = true
  first : b.device.dumpTimes.head? = some 0
  increasing : b.device.dumpTimes.Pairwise (· < ·)

theorem Timed.obeysClock {start : Bool} {b : Testbench (Recorder σ)} (h : b.Timed start)
    (kept : Device.ClockKept σ) {level : Option Bool} {edges : List Edge}
    (hs : b.device.Shown start level edges) (released : level ≠ some false) :
    b.ObeysClock start level edges where
  shown := hs
  released := released
  toStimulus :=
    ⟨kept.recorder.clock_toStimulus b, Edge.rises_landing _ _ _, hs.toStimulus kept⟩
  toResponse :=
    ⟨kept.recorder.clock_toResponse b, Edge.falls_landing _ _ _, hs.toResponse kept⟩
  cycles n :=
    have hcycles := hs.cycles n kept
    ⟨hcycles.1, Edge.rises_cycles _ _ _, Edge.falls_cycles _ _ _, hcycles.2⟩
  reset :=
    have hreset := hs.reset kept
    ⟨hreset.1, Edge.rises_cycles _ _ _, Edge.rises_cycles _ _ _, hreset.2⟩
  time := by
    obtain ⟨level', edges', hs', htime⟩ := h.shown
    rwa [hs.edges_eq hs']
  paired := h.paired
  first := h.first
  increasing := h.increasing

/-- After any steps, on a device whose clock reads as it was last set, a bench has obeyed its clock
since it was new. -/
theorem advance_obeys_clock (kept : Device.ClockKept σ) (d : σ) (steps : List Step) :
    let b := (new (⟨d, []⟩ : Recorder σ)).advance steps
    (new d).advance steps = b.map Recorder.device ∧
    ∃ level edges, b.ObeysClock (Device.clock d) level edges := by
  intro b
  have hb : b.Timed (Device.clock d) :=
    (Timed.driven kept _).advance kept.recorder (Timed.new kept d) steps
  obtain ⟨level, edges, hs, hreleased⟩ := released_advance kept (shown_new kept d) nofun steps
  exact ⟨advance_map Recorder.hom_device (new (⟨d, []⟩ : Recorder σ)) steps, level, edges,
    hb.obeysClock kept hs hreleased⟩

/-- A crossbar that is clocked, reset and landed from the other phase. -/
theorem advance_obeys_clock_of_reset :
    let steps := [Step.toResponse, .cycles 2, .reset, .toStimulus]
    let start := Device.clock Crossbar.initial
    let b := (new (⟨Crossbar.initial, []⟩ : Recorder Crossbar)).advance steps
    Device.ClockKept Crossbar ∧
    (((new Crossbar.initial).advance steps).time = 243 ∧
      (b.device.sight start).reset = some true ∧
      Edge.rises (b.device.sight start).edges = 25 ∧
      Edge.falls (b.device.sight start).edges = 24) ∧
    (new Crossbar.initial).advance steps = b.map Recorder.device ∧
    ∃ level edges, b.ObeysClock start level edges :=
  ⟨Crossbar.clockKept, by decide +kernel, advance_obeys_clock Crossbar.clockKept _ _⟩

end Testbench

end CrossbarBench
