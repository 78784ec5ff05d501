import CrossbarBench.Proofs.Bench.Recorder
import CrossbarBench.Proofs.Bench.Time

/-! The clock edges that a device is shown. It sees an edge where an evaluation finds the clock at
another level than the one before it. The clock driver evaluates before and after it sets a level,
so no edge is missed: landing in a phase shows one edge of its own kind, and one of the other kind
first where the clock was in that phase already. -/

namespace CrossbarBench

/-- An edge that a device has seen of its clock, and what its reset input had last been set to. -/
structure Edge where
  rising : Bool
  reset : Option Bool
  deriving DecidableEq

namespace Edge

/-- The edges on the way from a level to a landing right after an edge to the target level. -/
def landing (level target : Bool) (reset : Option Bool) : List Edge :=
  if level = target then [⟨!target, reset⟩, ⟨target, reset⟩] else [⟨target, reset⟩]

/-- The edges of cycles that start and end at a level. -/
def cycles (level : Bool) (reset : Option Bool) (n : Nat) : List Edge :=
  (List.replicate n [⟨!level, reset⟩, ⟨level, reset⟩]).flatten

theorem cycles_succ (level : Bool) (reset : Option Bool) (n : Nat) :
    cycles level reset (n + 1) = landing level level reset ++ cycles level reset n := by
  rw [cycles, List.replicate_succ, List.flatten_cons, landing, if_pos rfl]
  rfl

def rises (edges : List Edge) : Nat := edges.countP Edge.rising

def falls (edges : List Edge) : Nat := edges.countP fun e => !e.rising

@[simp] theorem rises_append (edges more : List Edge) :
    rises (edges ++ more) = rises edges + rises more := List.countP_append

@[simp] theorem falls_append (edges more : List Edge) :
    falls (edges ++ more) = falls edges + falls more := List.countP_append

@[simp] theorem rises_landing (level target : Bool) (reset : Option Bool) :
    rises (landing level target reset) = if target then 1 else (!level).toNat := by
  cases level <;> cases target <;> rfl

@[simp] theorem falls_landing (level target : Bool) (reset : Option Bool) :
    falls (landing level target reset) = if target then level.toNat else 1 := by
  cases level <;> cases target <;> rfl

@[simp] theorem rises_cycles (level : Bool) (reset : Option Bool) (n : Nat) :
    rises (cycles level reset n) = n := by
  induction n with
  | zero => rfl
  | succ n ih =>
    rw [cycles_succ, rises_append, ih, rises_landing]
    cases level <;> exact Nat.add_comm 1 n

@[simp] theorem falls_cycles (level : Bool) (reset : Option Bool) (n : Nat) :
    falls (cycles level reset n) = n := by
  induction n with
  | zero => rfl
  | succ n ih =>
    rw [cycles_succ, falls_append, ih, falls_landing]
    cases level <;> exact Nat.add_comm 1 n

end Edge

/-- What a device has been shown of its clock and of its reset input. -/
structure Sight where
  /-- As the clock was last set. -/
  level : Bool
  /-- As it was last evaluated. -/
  seen : Bool
  /-- As the reset input was last set. -/
  reset : Option Bool
  edges : List Edge
  deriving DecidableEq

namespace Sight

/-- A clock at rest at a level that has been seen. -/
def rest (level : Bool) : Sight := ⟨level, level, none, []⟩

/-- An evaluation sees the level, and an edge if the one before saw the other level. -/
def call (s : Sight) : Device.Call → Sight
  | .eval => { s with
      seen := s.level
      edges := s.edges ++ if s.level = s.seen then [] else [⟨s.level, s.reset⟩] }
  | .setClock high => { s with level := high }
  | .setReset high => { s with reset := some high }
  | .setDelay _ _ | .drive _ _ _ | .dump _ => s

end Sight

/-- What a device has been shown of its clock, with the edges counted. -/
structure Clocking where
  level : Bool
  seen : Bool
  rises : Nat
  falls : Nat
  deriving DecidableEq

def Sight.clocking (s : Sight) : Clocking :=
  ⟨s.level, s.seen, Edge.rises s.edges, Edge.falls s.edges⟩

theorem Device.ClockKept.recorder {σ : Type} [Device σ] (h : ClockKept σ) :
    ClockKept (Recorder σ) where
  setClock r := h.setClock r.device
  eval r := h.eval r.device
  setReset r := h.setReset r.device
  setDelay r := h.setDelay r.device
  drive r := h.drive r.device
  dump r := h.dump r.device

namespace Recorder

variable {σ : Type}

/-- What a device has been shown since it is on record, where its clock stood at a level. -/
def sight (r : Recorder σ) (level : Bool) : Sight := r.calls.foldl .call (.rest level)

/-- What it has been shown of its clock. -/
def clocking (r : Recorder σ) (level : Bool) : Clocking := (r.sight level).clocking

variable [Device σ]

theorem sight_call (r : Recorder σ) (c : Device.Call) (level : Bool) :
    (r.call c).sight level = (r.sight level).call c := by
  simp [sight, call]

/-- The device has seen its clock as it stands, after these edges from a level, and its reset input
was last set to this. -/
def Shown (start : Bool) (level : Option Bool) (edges : List Edge) (r : Recorder σ) : Prop :=
  r.sight start = ⟨Device.clock r, Device.clock r, level, edges⟩

/-- The device has seen its clock as it stands, after so many edges from a level. -/
def Clocked (start : Bool) (rises falls : Nat) (r : Recorder σ) : Prop :=
  r.clocking start = ⟨Device.clock r, Device.clock r, rises, falls⟩

namespace Shown

variable {start : Bool} {level : Option Bool} {edges : List Edge} {r : Recorder σ}
  {b : Testbench (Recorder σ)}

/-- The edges that a device has been shown are those on its record. -/
theorem edges_eq {level' : Option Bool} {edges' : List Edge} (hr : r.Shown start level edges)
    (hr' : r.Shown start level' edges') : edges = edges' :=
  congrArg Sight.edges (hr.symm.trans hr')

/-- A call that leaves the clock alone shows no edge. -/
theorem call (hr : r.Shown start level edges) {c : Device.Call}
    (hclock : Device.clock (r.call c) = Device.clock r) (hquiet : ∀ s : Sight, s.call c = s) :
    (r.call c).Shown start level edges := by
  rw [Shown, sight_call, hquiet, hclock]
  exact hr

/-- An evaluation shows no edge where the clock has been seen as it stands. -/
theorem eval (hr : r.Shown start level edges) (kept : Device.ClockKept σ) :
    (Device.eval r).Shown start level edges := by
  have hclock : Device.clock (Device.eval r) = Device.clock r := kept.eval r.device
  rw [Shown, hclock]
  change (r.call .eval).sight start = _
  rw [sight_call, hr]
  simp [Sight.call]

theorem setReset (hr : r.Shown start level edges) (kept : Device.ClockKept σ) (high : Bool) :
    (Device.setReset r high).Shown start (some high) edges := by
  have hclock : Device.clock (Device.setReset r high) = Device.clock r :=
    kept.setReset r.device high
  rw [Shown, hclock]
  change (r.call (.setReset high)).sight start = _
  rw [sight_call, hr]
  rfl

/-! ### The clock driver -/

theorem halfCycle (hb : b.device.Shown start level edges) (kept : Device.ClockKept σ)
    (high : Bool) (passing : Nat) :
    (b.halfCycle high passing).device.Shown start level
      (edges ++ if high = Device.clock b.device then [] else [⟨high, level⟩]) := by
  have hclock := kept.recorder.clock_halfCycle b high passing
  rw [Shown, hclock]
  change (((((b.device.call .eval).call (.dump b.time)).call (.setClock high)).call .eval).call
    (.dump (b.time + passing))).sight start = _
  simp only [sight_call]
  rw [hb]
  simp [Sight.call]

/-- A half cycle to the level at which the clock is not shows the edge to it. -/
theorem edge (hb : b.device.Shown start level edges) (kept : Device.ClockKept σ) (high : Bool)
    (hc : Device.clock b.device = !high) (passing : Nat) :
    (b.halfCycle high passing).device.Shown start level (edges ++ [⟨high, level⟩]) := by
  have hne : high ≠ Device.clock b.device := by
    rw [hc]
    cases high <;> decide
  have h := hb.halfCycle kept high passing
  rwa [if_neg hne] at h

theorem toStimulus (hb : b.device.Shown start level edges) (kept : Device.ClockKept σ) :
    b.toStimulus.device.Shown start level
      (edges ++ Edge.landing (Device.clock b.device) true level) := by
  unfold Testbench.toStimulus
  cases hc : Device.clock b.device with
  | false => exact hb.edge kept true hc 1
  | true =>
    have hlow := kept.recorder.clock_halfCycle b false 4
    have h := (hb.edge kept false hc 4).edge kept true hlow 1
    rwa [List.append_assoc] at h

theorem toResponse (hb : b.device.Shown start level edges) (kept : Device.ClockKept σ) :
    b.toResponse.device.Shown start level
      (edges ++ Edge.landing (Device.clock b.device) false level) := by
  unfold Testbench.toResponse
  cases hc : Device.clock b.device with
  | true => exact hb.edge kept false hc 4
  | false =>
    have hhigh := kept.recorder.clock_halfCycle b true 1
    have h := (hb.edge kept true hc 1).edge kept false hhigh 4
    rwa [List.append_assoc] at h

/-- A cycle shows one edge of each kind, from either phase. -/
theorem cycle (hb : b.device.Shown start level edges) (kept : Device.ClockKept σ) :
    Device.clock b.cycle.device = Device.clock b.device ∧ b.cycle.device.Shown start level
      (edges ++ Edge.landing (Device.clock b.device) (Device.clock b.device) level) := by
  unfold Testbench.cycle
  cases hc : Device.clock b.device with
  | false =>
    have h := (hb.toStimulus kept).toResponse kept
    rw [kept.recorder.clock_toStimulus b, hc, List.append_assoc] at h
    exact ⟨kept.recorder.clock_toResponse _, h⟩
  | true =>
    have h := (hb.toResponse kept).toStimulus kept
    rw [kept.recorder.clock_toResponse b, hc, List.append_assoc] at h
    exact ⟨kept.recorder.clock_toStimulus _, h⟩

theorem cycles (n : Nat) (hb : b.device.Shown start level edges) (kept : Device.ClockKept σ) :
    Device.clock (Testbench.cycles n b).device = Device.clock b.device ∧
      (Testbench.cycles n b).device.Shown start level
        (edges ++ Edge.cycles (Device.clock b.device) level n) := by
  induction n generalizing b edges with
  | zero =>
    exact ⟨rfl, by rwa [Edge.cycles, List.replicate_zero, List.flatten_nil, List.append_nil]⟩
  | succ n ih =>
    obtain ⟨hc, hcycle⟩ := hb.cycle kept
    obtain ⟨hn, hs⟩ := ih hcycle
    rw [hc, List.append_assoc, ← Edge.cycles_succ] at hs
    exact ⟨hn.trans hc, hs⟩

/-- A reset lands on a rising edge, and shows ten cycles with its input low and ten more with it
high. -/
theorem reset (hb : b.device.Shown start level edges) (kept : Device.ClockKept σ) :
    Device.clock b.reset.device = true ∧ b.reset.device.Shown start (some true)
      (edges ++ Edge.landing (Device.clock b.device) true level ++
        Edge.cycles true (some false) 10 ++ Edge.cycles true (some true) 10) := by
  let held := b.toStimulus.onDevice (Device.setReset · false)
  have hheld : Device.clock held.device = true :=
    (kept.setReset _ _).trans (kept.recorder.clock_toStimulus b)
  obtain ⟨hlow, hs⟩ := cycles 10 (b := held) ((hb.toStimulus kept).setReset kept false) kept
  let freed := (Testbench.cycles 10 held).onDevice (Device.setReset · true)
  have hfreed : Device.clock freed.device = true := (kept.setReset _ _).trans (hlow.trans hheld)
  obtain ⟨hhigh, hs⟩ := cycles 10 (b := freed) (hs.setReset kept true) kept
  rw [hheld, hfreed] at hs
  exact ⟨hhigh.trans hfreed, hs⟩

end Shown

/-! ### Edges counted -/

theorem Shown.clocked {start : Bool} {level : Option Bool} {edges : List Edge} {r : Recorder σ}
    (h : r.Shown start level edges) : r.Clocked start (Edge.rises edges) (Edge.falls edges) := by
  rw [Clocked, clocking, h]
  rfl

namespace Clocked

variable {start : Bool} {m n : Nat} {r : Recorder σ} {b : Testbench (Recorder σ)}

/-- What has been counted has been seen. -/
theorem exists_shown (hr : r.Clocked start m n) :
    ∃ level edges, r.Shown start level edges ∧ Edge.rises edges = m ∧ Edge.falls edges = n := by
  rw [Clocked, clocking] at hr
  generalize hs : r.sight start = s at hr
  obtain ⟨_, _, level, edges⟩ := s
  obtain ⟨rfl, rfl, rfl, rfl⟩ := Clocking.mk.inj hr
  exact ⟨level, edges, hs, rfl, rfl⟩

theorem call (hr : r.Clocked start m n) {c : Device.Call}
    (hclock : Device.clock (r.call c) = Device.clock r) (hquiet : ∀ s : Sight, s.call c = s) :
    (r.call c).Clocked start m n := by
  obtain ⟨_, _, hs, rfl, rfl⟩ := hr.exists_shown
  exact (hs.call hclock hquiet).clocked

theorem setDelay (hr : r.Clocked start m n) (kept : Device.ClockKept σ)
    (peripheral delay : Nat) : (Device.setDelay r peripheral delay).Clocked start m n :=
  hr.call (kept.setDelay r.device peripheral delay) fun _ => rfl

theorem closedOn (kept : Device.ClockKept σ) (start : Bool) (m n : Nat) (port : Port) :
    Device.ClosedOn port (Clocked (σ := σ) start m n) :=
  fun r signal value hr => hr.call (kept.drive r.device port signal value) fun _ => rfl

theorem toStimulus (hb : b.device.Clocked start m n) (kept : Device.ClockKept σ) :
    b.toStimulus.device.Clocked start (m + 1) (n + (Device.clock b.device).toNat) := by
  obtain ⟨_, _, hs, rfl, rfl⟩ := hb.exists_shown
  have h := (hs.toStimulus kept).clocked
  rwa [Edge.rises_append, Edge.falls_append, Edge.rises_landing, Edge.falls_landing] at h

theorem toResponse (hb : b.device.Clocked start m n) (kept : Device.ClockKept σ) :
    b.toResponse.device.Clocked start (m + (!Device.clock b.device).toNat) (n + 1) := by
  obtain ⟨_, _, hs, rfl, rfl⟩ := hb.exists_shown
  have h := (hs.toResponse kept).clocked
  rwa [Edge.rises_append, Edge.falls_append, Edge.rises_landing, Edge.falls_landing] at h

theorem prepare (hb : b.device.Clocked start m n) (kept : Device.ClockKept σ)
    (delays : Table 4 Nat) : ∃ falls, (b.prepare delays).device.Clocked start (m + 21) falls := by
  obtain ⟨d, hd, he⟩ := Testbench.prepare_eq_reset (Q := Clocked start m n)
    (fun _ peripheral delay hr => setDelay hr kept peripheral delay)
    (fun _ port hr => (closedOn kept start m n port).setRequest hr false) hb delays
  obtain ⟨_, _, hs, hrises, -⟩ := hd.exists_shown
  have h := (Shown.reset (b := { b with device := d }) hs kept).2.clocked
  simp only [Edge.rises_append, Edge.rises_landing, Edge.rises_cycles, hrises] at h
  rw [he]
  exact ⟨_, h⟩

end Clocked

end Recorder

end CrossbarBench
