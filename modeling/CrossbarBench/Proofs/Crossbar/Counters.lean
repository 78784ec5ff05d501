import Mathlib.Data.List.Induction
import CrossbarBench.Proofs.Bus.Decomposition
import CrossbarBench.Proofs.Crossbar.Contention

/-! Numbers that stay in range. A memory counts an edge only while it has counted fewer than its
delay, so the count stays within the largest delay that the memory was ever given, though the delay
may change while it counts. The registers hold what their signals can carry, so a port selects a
memory that there is. A run counts its iterations one by one and not beyond the limit. -/

namespace CrossbarBench

/-- The order after a port as the port numbers go on, modulo three. -/
theorem Port.val_following (last : Port) :
    (following last).map Fin.val = (List.range' (last.val + 1) 3).map (· % 3) := by
  revert last; decide

namespace Memory

/-- Neither the delay nor the count of a memory is beyond a bound. -/
structure Within (bound : Nat) (m : Memory) : Prop where
  delay : m.delay ≤ bound
  waited : m.waited ≤ bound

namespace Within

variable {bound more : Nat} {m : Memory}

theorem mono (h : m.Within bound) (hb : bound ≤ more) : m.Within more :=
  ⟨h.delay.trans hb, h.waited.trans hb⟩

/-- An edge is counted only while the delay is not over. -/
theorem serve (h : m.Within bound) (controllers : Table 3 Inputs) :
    (m.serve controllers).2.Within bound := by
  cases hg : m.grant with
  | none => rwa [serve_none hg]
  | some c =>
    cases hr : (controllers.get c).request with
    | false =>
      rw [serve_withdrawn hg hr]
      exact ⟨h.delay, h.waited⟩
    | true =>
      by_cases hd : m.delay ≤ m.waited
      · rw [serve_answered hg hr hd]
        exact ⟨h.delay, h.waited⟩
      · rw [serve_waiting hg hr (Nat.not_le.mp hd)]
        exact ⟨h.delay, (Nat.not_le.mp hd : m.waited < m.delay).trans_le h.delay⟩

theorem arbitrate (h : m.Within bound) (p : Peripheral) (controllers : Table 3 Inputs)
    (served : Option Port) : (m.arbitrate p controllers served).Within bound := by
  cases hg : m.grant with
  | some c => rwa [arbitrate_granted hg]
  | none =>
    rcases arbitrate_cases p controllers served hg with ha | ⟨c, -, ha⟩ <;> rw [ha]
    · exact h
    · exact ⟨h.delay, Nat.zero_le _⟩

theorem edge (h : m.Within bound) (p : Peripheral) (controllers : Table 3 Inputs) :
    (m.edge p controllers).Within bound :=
  (h.serve controllers).arbitrate p controllers _

theorem reset (h : m.Within bound) : m.reset.Within bound := ⟨h.delay, Nat.zero_le _⟩

end Within

/-- The numbers of a memory are in range. While it is granted it remembers to whom. What it has
counted is within the largest delay it was ever given, whatever it is asked to serve next, so the
sum never leaves a word. The ports that it looks through are numbered modulo three. -/
structure InRange (largest : Nat) (m : Memory) : Prop where
  lastGrant : m.lastGrant.val ≤ 2
  remembers : ∀ c, m.grant = some c → m.lastGrant = c
  waited : m.waited ≤ largest
  served : ∀ controllers, (m.serve controllers).2.waited ≤ largest
  largest : largest < 2 ^ 32
  following : (Port.following m.lastGrant).map Fin.val =
    (List.range' (m.lastGrant.val + 1) 3).map (· % 3)

theorem Within.inRange {bound : Nat} {m : Memory} (h : m.Within bound)
    (remembers : ∀ c, m.grant = some c → m.lastGrant = c) (hbound : bound < 2 ^ 32) :
    m.InRange bound where
  lastGrant := Nat.le_of_lt_succ (Fin.isLt _)
  remembers := remembers
  waited := h.waited
  served controllers := (h.serve controllers).waited
  largest := hbound
  following := Port.val_following _

end Memory

namespace Crossbar

/-! ### Edges counted -/

/-- The delay that a call gives a memory, zero where it gives none. -/
def Call.delay (p : Peripheral) : Call → Nat
  | .setDelay peripheral delay => if peripheral = p.val then delay else 0
  | .eval | .setClock _ | .setReset _ | .drive .. | .dump _ | .withTrace | .withCorruption _
  | .withSpuriousReady _ => 0

/-- The largest delay that calls have given a memory, with the one of a new memory. -/
def largestDelay (calls : List Call) (p : Peripheral) : Nat :=
  calls.foldl (fun largest call => max largest (call.delay p)) Memory.initial.delay

theorem largestDelay_concat (calls : List Call) (call : Call) (p : Peripheral) :
    largestDelay (calls ++ [call]) p = max (largestDelay calls p) (call.delay p) :=
  List.foldl_append

theorem largestDelay_lt {calls : List Call} {bound : Nat} (hpos : 0 < bound) {p : Peripheral}
    (h : ∀ call ∈ calls, call.delay p < bound) : largestDelay calls p < bound := by
  induction calls using List.reverseRecOn with
  | nil => exact hpos
  | append_singleton calls call ih =>
    rw [largestDelay_concat]
    exact max_lt (ih fun call hm => h call (List.mem_append_left _ hm)) (h call (by simp))

/-- A call raises the bound by the delay that it gives. -/
theorem within_apply {x : Crossbar} {p : Peripheral} {bound : Nat}
    (h : (x.memories.get p).Within bound) (call : Call) :
    ((call.apply x).memories.get p).Within (max bound (call.delay p)) := by
  have hmono := h.mono (Nat.le_max_left bound (call.delay p))
  rcases memory_cases x call p with hm | ⟨-, hm | hm⟩ | ⟨delay, rfl, hm⟩ <;> rw [hm]
  · exact hmono
  · exact hmono.edge p _
  · exact hmono.reset
  · refine ⟨?_, hmono.waited⟩
    rw [Call.delay, if_pos rfl]
    exact Nat.le_max_right _ _

theorem within_after (calls : List Call) (p : Peripheral) :
    ((initial.after calls).memories.get p).Within (largestDelay calls p) := by
  induction calls using List.reverseRecOn with
  | nil =>
    have hnew : initial.memories.get p = Memory.initial := Table.get_replicate _ _
    rw [after, List.foldl_nil, hnew]
    exact ⟨Nat.le_refl _, Nat.le_refl _⟩
  | append_singleton calls call ih =>
    rw [after_append, largestDelay_concat]
    exact within_apply ih call

end Crossbar

/-! ### Registers -/

/-- The registers hold what their signals can carry, so they select a memory and a word of it by
numbers that need no reduction. -/
structure Inputs.InRange (inputs : Inputs) : Prop where
  address : inputs.address.toNat < 2 ^ 16
  enables : inputs.enables.toNat < 16
  peripheral : inputs.target.1.val = inputs.address.toNat / 2 ^ 14
  word : inputs.target.2.val = inputs.address.toNat % 4

theorem Inputs.Fits.inRange {port : Port} {inputs : Inputs} (h : inputs.Fits port) :
    inputs.InRange where
  address := by
    rw [← h.address]
    exact AddressMap.standard.mask_lt inputs.address
  enables := by
    rw [← h.enables]
    exact ByteEnables.toNat_trim_lt inputs.enables
  peripheral := by
    have hp := AddressMap.standard.val_peripheral inputs.address
    rwa [h.address] at hp
  word := rfl

/-! ### Iterations counted -/

namespace Run

variable {σ : Type} [Device σ]

/-- The numbers that the loop gives its iterations, with the one that the limit cuts off. -/
def counted : (left iteration : Nat) → Run σ → List Nat
  | 0, iteration, _ => [iteration]
  | left + 1, iteration, r =>
    let r := r.iterate iteration
    iteration :: if r.allDrained then [] else counted left (iteration + 1) r

/-- The loop counts up to the iteration that it ends with, which is at the limit at the latest. -/
theorem counted_eq (limit left k : Nat) (r : Run σ) :
    ∃ n, n ≤ left ∧ (loop limit left k r).2.1 = k + n ∧
      counted left k r = List.range' k (n + 1) := by
  induction left generalizing k r with
  | zero => exact ⟨0, Nat.le_refl 0, rfl, rfl⟩
  | succ left ih =>
    rw [loop, counted]
    cases hd : (r.iterate k).allDrained with
    | true => exact ⟨0, Nat.zero_le _, rfl, rfl⟩
    | false =>
      obtain ⟨n, hn, hl, hc⟩ := ih (k + 1) (r.iterate k)
      refine ⟨n + 1, Nat.succ_le_succ hn, ?_, ?_⟩
      · rw [if_neg Bool.false_ne_true, hl]
        omega
      · rw [if_neg Bool.false_ne_true, hc]
        rfl

end Run

namespace Testbench

variable {σ : Type} [Device σ]

/-- A run counts its iterations from one to the number that it reports, and not beyond the limit. -/
def CountsInRange (b : Testbench σ) (map : AddressMap) (s : Scenario) : Prop :=
  let counted := Run.counted (s.limit - 1) 1 (b.launch map s)
  ∃ report bench, b.perform s = .ok (report, bench) ∧
    counted = List.range' 1 report.iterations ∧ ∀ k ∈ counted, k ≤ max 1 s.limit ∧ k < 2 ^ 32

theorem countsInRange {b : Testbench σ} {map : AddressMap}
    (width : Device.addressWidth b.device = map.width) {s : Scenario} (hlimit : s.limit < 2 ^ 32) :
    b.CountsInRange map s := by
  obtain ⟨n, hn, hl, hc⟩ := Run.counted_eq s.limit (s.limit - 1) 1 (b.launch map s)
  rw [Nat.add_comm n 1, ← hl] at hc
  rw [CountsInRange, perform_eq, width, AddressMap.ofWidth_width]
  refine ⟨_, _, rfl, hc, fun k hk => ?_⟩
  rw [hc, List.mem_range'_1] at hk
  omega

end Testbench

namespace Crossbar

/-- After any calls, with delays that fit a word, the numbers of the memories and of the registers
are in range, and so are the iterations that a run on any device counts, with a limit that fits a
word. -/
theorem counters_in_range {calls : List Call}
    (hdelays : ∀ call ∈ calls, ∀ p, call.delay p < 2 ^ 32) {σ : Type} [Device σ]
    {b : Testbench σ} {map : AddressMap} (width : Device.addressWidth b.device = map.width)
    {s : Scenario} (hlimit : s.limit < 2 ^ 32) :
    (∀ p, ((initial.after calls).memories.get p).InRange (largestDelay calls p)) ∧
    (∀ c, ((initial.after calls).controllers.get c).InRange) ∧
    b.CountsInRange map s := by
  have hx : (initial.after calls).Reached := ⟨calls, rfl⟩
  refine ⟨fun p => ?_, fun c => (hx.fits c).inRange, Testbench.countsInRange width hlimit⟩
  exact (within_after calls p).inRange (hx.remembers p)
    (largestDelay_lt (by decide) fun call hm => hdelays call hm p)

/-- A delay is lowered and raised to the largest there is while it is waited for, and a run may take
as many iterations as a limit can allow. -/
theorem counters_in_range_of_largest :
    let calls : List Call := [.setDelay 0 2, .drive .two .request 1, .setClock true, .eval,
      .setClock false, .eval, .setClock true, .eval, .setDelay 0 1, .setDelay 0 0xFFFFFFFF,
      .setClock false, .eval, .setClock true, .eval]
    let x := initial.after calls
    let b := Testbench.new x
    let s := (Scenario.blank "longest").withLimit 0xFFFFFFFF
    ((∀ call ∈ calls, ∀ p, call.delay p < 2 ^ 32) ∧
      Device.addressWidth b.device = AddressMap.standard.width ∧ s.limit < 2 ^ 32 ∧
      (x.memories.get 0).grant = some .two ∧ (x.memories.get 0).waited = 2) ∧
    (∀ p, (x.memories.get p).InRange (largestDelay calls p)) ∧
    (∀ c, (x.controllers.get c).InRange) ∧ b.CountsInRange .standard s :=
  have hdelays := by decide +kernel
  have hlimit := by decide +kernel
  ⟨⟨hdelays, rfl, hlimit, by decide +kernel, by decide +kernel⟩,
    counters_in_range hdelays rfl hlimit⟩

end Crossbar

end CrossbarBench
