import CrossbarBench.Proofs.Crossbar.Arbitration
import CrossbarBench.Proofs.Crossbar.Readiness

/-! Bounded waiting. A controller that keeps requesting a memory is served whatever the others do
in the meantime, who may raise, withdraw and redirect their requests before every clock cycle. A
grant to another one lasts no longer than the delay and the edge that ends it, and brings the turn
of the waiting controller nearer. So each of the others is granted the memory once at most. -/

namespace CrossbarBench

namespace Port

variable {c d : Port} {steps steps' : Nat} {ports : List Port}

/-- Ports that a rotation comes by on its way to a port, in order and with fewer steps left than
so many. -/
structure Approach (c : Port) (steps : Nat) (ports : List Port) : Prop where
  ordered : ports.Pairwise fun d e => stepsTo e c < stepsTo d c
  near : ∀ d ∈ ports, stepsTo d c < steps

namespace Approach

theorem nil (c : Port) (steps : Nat) : Approach c steps [] := ⟨.nil, nofun⟩

theorem mono (h : Approach c steps ports) (hs : steps ≤ steps') : Approach c steps' ports :=
  ⟨h.ordered, fun d hd => Nat.lt_of_lt_of_le (h.near d hd) hs⟩

theorem cons (h : Approach c (stepsTo d c) ports) (hd : stepsTo d c < steps) :
    Approach c steps (d :: ports) where
  ordered := List.pairwise_cons.mpr ⟨h.near, h.ordered⟩
  near e he := by
    rcases List.mem_cons.mp he with rfl | he
    · exact hd
    · exact Nat.lt_trans (h.near e he) hd

/-- No port is come by twice. -/
theorem nodup (h : Approach c steps ports) : ports.Nodup :=
  h.ordered.imp fun hlt he => by
    subst he
    exact Nat.lt_irrefl _ hlt

/-- A port takes at least one of the steps that are left at the one before it. -/
theorem length_le (h : Approach c steps ports) : ports.length ≤ steps - 1 := by
  induction ports generalizing steps with
  | nil => exact Nat.zero_le _
  | cons d ports ih =>
    obtain ⟨hnear, hordered⟩ := List.pairwise_cons.mp h.ordered
    have hrest := ih ⟨hordered, hnear⟩
    have hd := h.near d List.mem_cons_self
    have hpos := stepsTo_pos d c
    rw [List.length_cons]
    omega

end Approach

end Port

namespace Memory

variable {m : Memory} {p : Peripheral} {controllers : Table 3 Inputs} {c : Port}

/-- Grants until a controller that keeps requesting the memory holds it, its own included. -/
def turn (m : Memory) (c : Port) : Nat :=
  if m.grant = some c then 0 else Port.stepsTo m.lastGrant c

/-- The controller that holds a memory's grant and did not hold it before. -/
def granted? (before after : Memory) : Option Port :=
  if after.grant = before.grant then none else after.grant

/-- For a controller that is not yet answered an edge keeps the grants as they are or gives a new
one. That is its own or brings its turn nearer. -/
theorem turn_edge (hc : (controllers.get c).request = true)
    (ht : (controllers.get c).target.1 = p) (ha : m.answers c = false) :
    (granted? m (m.edge p controllers) = none ∧ (m.edge p controllers).turn c = m.turn c) ∨
      ∃ d, granted? m (m.edge p controllers) = some d ∧
        (m.edge p controllers).turn c < m.turn c ∧
        (d ≠ c → (m.edge p controllers).turn c = Port.stepsTo d c) := by
  rcases edge_cases m p controllers with
    ⟨d, hg, -, hlt, he⟩ | ⟨words, served, he, hserved, hdue⟩
  · left
    rw [he]
    exact ⟨if_pos rfl, rfl⟩
  · right
    have hne : m.grant ≠ some c := fun hg => by
      rw [Bool.eq_false_iff, Ne, answers_iff] at ha
      exact ha ⟨hg, hdue c hg hc⟩
    obtain ⟨d, had, hturn⟩ := arbitrate_eligible (m := { m with words := words, grant := none })
      rfl (eligible_iff.mpr ⟨fun h => hne (hserved c h), hc, ht⟩)
    rw [had] at he
    have hgrant : (m.edge p controllers).grant = some d := by rw [he]
    -- who has just been served or has withdrawn is not granted again on the same edge
    have hnew : m.grant ≠ some d := fun hg => by
      rcases grant_edge hgrant with ⟨-, hr, hlt⟩ | ⟨hr, -, hn⟩
      · exact absurd (hdue d hg hr) (Nat.not_le.mpr hlt)
      · exact hn ⟨hg, hdue d hg hr⟩
    refine ⟨d, ?_, ?_, fun hdc => ?_⟩
    · rw [granted?, hgrant, if_neg (Ne.symm hnew)]
    · rw [turn, turn, if_neg hne, he]
      by_cases hdc : d = c
      · rw [if_pos (congrArg some hdc)]
        exact Port.stepsTo_pos _ _
      · rw [if_neg (by simpa using hdc)]
        exact hturn.resolve_left hdc
    · rw [turn, he, if_neg (by simpa using hdc)]

end Memory

namespace Crossbar

variable {x : Crossbar} {c : Port} {p : Peripheral} {d : Nat}

/-! ### Clock cycles among other calls -/

/-- A clock cycle from a low level, evaluated before and after each change. -/
def clockCycle : List Call := [.eval, .setClock true, .eval, .setClock false, .eval]

/-- Calls and then a clock cycle. -/
def round (x : Crossbar) (calls : List Call) : Crossbar := (x.after calls).after clockCycle

def afterRounds (x : Crossbar) (rounds : List (List Call)) : Crossbar := rounds.foldl round x

/-- The controllers that a memory is granted to in rounds, in order. -/
def grants (p : Peripheral) (x : Crossbar) : List (List Call) → List Port
  | [] => []
  | calls :: rounds =>
    (Memory.granted? (x.memories.get p) ((x.round calls).memories.get p)).toList ++
      grants p (x.round calls) rounds

/-- The call leaves alone the signals of a port and the delay of a memory, and both the clock low
and the reset high. -/
def Call.spares (c : Port) (p : Peripheral) : Call → Bool
  | .drive port _ _ => port ≠ c
  | .setDelay peripheral _ => peripheral ≠ p.val
  | .setClock high => !high
  | .setReset high => high
  | .eval | .dump _ | .withTrace | .withCorruption _ | .withSpuriousReady _ => true

/-- Between two clock cycles out of reset a controller requests a memory of this delay. -/
structure Asks (c : Port) (p : Peripheral) (d : Nat) (x : Crossbar) : Prop where
  clock : x.clock = false
  seen : x.lastClock = false
  resetLevel : x.resetLevel = true
  request : (x.controllers.get c).request = true
  target : (x.controllers.get c).target.1 = p
  delay : (x.memories.get p).delay = d

namespace Asks

/-- Evaluating a clock that is still low makes no registered update. -/
theorem memories_eval (h : x.Asks c p d) : x.eval.memories = x.memories :=
  memories_eval_of_seen (h.seen.trans h.clock.symm)

theorem eval (h : x.Asks c p d) : x.eval.Asks c p d where
  clock := (clock_eval x).trans h.clock
  seen := (lastClock_eval x).trans h.clock
  resetLevel := (SameSetup.eval x).resetLevel.trans h.resetLevel
  request := by
    rw [(SameSetup.eval x).controllers]
    exact h.request
  target := by
    rw [(SameSetup.eval x).controllers]
    exact h.target
  delay := by
    rw [h.memories_eval]
    exact h.delay

theorem call (h : x.Asks c p d) {call : Call} (hs : call.spares c p = true) :
    (call.apply x).Asks c p d ∧ (call.apply x).memories.get p = x.memories.get p := by
  cases call with
  | eval =>
    refine ⟨h.eval, ?_⟩
    rw [Call.apply, h.memories_eval]
  | setClock high =>
    have hlow : high = false := by simpa [Call.spares] using hs
    exact ⟨{ h with clock := hlow }, rfl⟩
  | setReset high => exact ⟨{ h with resetLevel := hs }, rfl⟩
  | setDelay peripheral delay =>
    have hne : peripheral ≠ p.val := by simpa [Call.spares] using hs
    have hm : (x.setDelay peripheral delay).memories.get p = x.memories.get p := by
      rw [setDelay]
      split
      · rename_i hp
        exact (Table.get_modify _ _ _ _).trans (if_neg fun he => hne (congrArg Fin.val he))
      · rfl
    rw [Call.apply]
    refine ⟨?_, hm⟩
    rw [setDelay] at hm ⊢
    split
    · rename_i hp
      rw [dif_pos hp] at hm
      exact { h with delay := (congrArg Memory.delay hm).trans h.delay }
    · exact h
  | drive port signal value =>
    have hne : port ≠ c := by simpa [Call.spares] using hs
    rw [Call.apply, drive]
    split
    · exact ⟨h, rfl⟩
    · have hc : (x.controllers.modify port (·.latch value signal)).get c = x.controllers.get c :=
        (Table.get_modify _ _ _ _).trans (if_neg hne)
      refine ⟨{ h with request := ?_, target := ?_ }, rfl⟩
      · rw [hc]
        exact h.request
      · rw [hc]
        exact h.target
  | dump | withTrace | withCorruption | withSpuriousReady => exact ⟨{ h with }, rfl⟩

theorem after {calls : List Call} (hs : ∀ call ∈ calls, call.spares c p = true) :
    ∀ {x : Crossbar}, x.Asks c p d →
      (x.after calls).Asks c p d ∧ (x.after calls).memories.get p = x.memories.get p := by
  induction calls with
  | nil => exact fun h => ⟨h, rfl⟩
  | cons call calls ih =>
    intro x h
    obtain ⟨hc, hm⟩ := h.call (hs call List.mem_cons_self)
    obtain ⟨ha, hma⟩ := ih (fun call hm => hs call (List.mem_cons_of_mem _ hm)) hc
    exact ⟨ha, hma.trans hm⟩

/-- A clock cycle makes one registered update. -/
theorem cycle (h : x.Asks c p d) :
    (x.after clockCycle).Asks c p d ∧
      (x.after clockCycle).memories.get p = (x.memories.get p).edge p x.controllers := by
  let raised : Crossbar := { x.eval with clock := true }
  let lowered : Crossbar := { raised.eval with clock := false }
  have hcycle : x.after clockCycle = lowered.eval := rfl
  have hraised : raised.SameSetup x := (SameSetup.setClock _ true).trans (SameSetup.eval x)
  have hsetup : lowered.eval.SameSetup x :=
    (SameSetup.eval _).trans ((SameSetup.setClock _ false).trans
      ((SameSetup.eval _).trans hraised))
  have hrise : raised.eval.memories = x.edge.memories := by
    have hseen : raised.lastClock = false := (lastClock_eval x).trans h.clock
    rw [Crossbar.memories_eval, hseen]
    exact hraised.edge_congr h.memories_eval
  have hfall : lowered.eval.memories = raised.eval.memories := by
    rw [Crossbar.memories_eval]
    rfl
  have hmemory : lowered.eval.memories.get p = (x.memories.get p).edge p x.controllers := by
    rw [hfall, hrise, memories_edge, if_pos h.resetLevel]
  rw [hcycle]
  refine ⟨⟨clock_eval _, lastClock_eval _, hsetup.resetLevel.trans h.resetLevel, ?_, ?_, ?_⟩,
    hmemory⟩
  · rw [hsetup.controllers]
    exact h.request
  · rw [hsetup.controllers]
    exact h.target
  · rw [hmemory, Memory.delay_edge]
    exact h.delay

/-- A round makes one registered update, in which the others may ask for anything. -/
theorem round (h : x.Asks c p d) {calls : List Call}
    (hs : ∀ call ∈ calls, call.spares c p = true) :
    (x.round calls).Asks c p d ∧ ∃ controllers : Table 3 Inputs,
      (controllers.get c).request = true ∧ (controllers.get c).target.1 = p ∧
      (x.round calls).memories.get p = (x.memories.get p).edge p controllers := by
  obtain ⟨ha, hm⟩ := after hs h
  obtain ⟨hc, hedge⟩ := ha.cycle
  refine ⟨hc, _, ha.request, ha.target, ?_⟩
  rw [← hm]
  exact hedge

/-- The controller is ready once the memory answers it. -/
theorem ready_iff (h : x.Asks c p d) (hs : x.Settled) :
    Device.ready x c = true ↔ (x.memories.get p).answers c = true := by
  have hr : Device.request x c = true := by
    rw [request_eq]
    exact h.request
  rw [hs.ready_iff_answered hr, answered, h.request, Bool.true_and, h.target]

/-! ### Rounds -/

theorem settled_round (x : Crossbar) (calls : List Call) : (x.round calls).Settled :=
  settled_eval _

/-- A controller that asks is ready after as many rounds as the memory's bound, at the latest.
What is granted to others in them brings its turn nearer. -/
theorem served (rounds : List (List Call)) :
    ∀ {x : Crossbar}, x.Asks c p d → x.Settled →
      (∀ calls ∈ rounds, ∀ call ∈ calls, call.spares c p = true) →
      (x.memories.get p).latest c ≤ rounds.length →
      ∃ n, n ≤ (x.memories.get p).latest c ∧
        Device.ready (x.afterRounds (rounds.take n)) c = true ∧
        (∀ m, m < n → Device.ready (x.afterRounds (rounds.take m)) c = false) ∧
        Port.Approach c ((x.memories.get p).turn c)
          ((x.grants p (rounds.take n)).filter (· != c)) := by
  induction rounds with
  | nil =>
    intro x h hs _ hl
    have hanswers := (Memory.latest_eq_zero_iff _ c).mp (Nat.le_zero.mp hl)
    exact ⟨0, Nat.zero_le _, (h.ready_iff hs).mpr hanswers, by omega, .nil c _⟩
  | cons calls rounds ih =>
    intro x h hs hspares hl
    by_cases hready : Device.ready x c = true
    · exact ⟨0, Nat.zero_le _, hready, by omega, .nil c _⟩
    · have ha : (x.memories.get p).answers c = false := by
        rw [Bool.eq_false_iff]
        exact fun ha => hready ((h.ready_iff hs).mpr ha)
      obtain ⟨hnext, controllers, hc, ht, hm⟩ := h.round (hspares calls List.mem_cons_self)
      have hbound := (Memory.bounds_edge hc ht ha).2
      have hturn := Memory.turn_edge hc ht ha
      rw [← hm] at hbound hturn
      rw [List.length_cons] at hl
      obtain ⟨n, hn, hr, hfirst, happroach⟩ := ih hnext (settled_round x calls)
        (fun calls hm => hspares calls (List.mem_cons_of_mem _ hm)) (by omega)
      refine ⟨n + 1, by omega, hr, fun m hmn => ?_, ?_⟩
      · cases m with
        | zero => exact Bool.eq_false_iff.mpr hready
        | succ m => exact hfirst m (by omega)
      · rw [List.take_succ_cons, grants, List.filter_append]
        rcases hturn with ⟨hnone, hkept⟩ | ⟨e, hsome, hless, hother⟩
        · rw [hnone, ← hkept]
          exact happroach
        · rw [hsome]
          by_cases hec : e = c
          · subst hec
            simpa using happroach.mono (Nat.le_of_lt hless)
          · rw [hother hec] at hless happroach
            simpa [hec] using happroach.cons hless

end Asks

/-- Whatever is done to a crossbar, its memories remember their last grants. -/
theorem Reached.remembers (h : x.Reached) (p : Peripheral) : (x.memories.get p).Remembers := by
  refine h.induction (Q := fun x => ∀ p, (x.memories.get p).Remembers) ?_ ?_ p
  · intro p
    rw [initial, Table.get_replicate]
    exact Memory.remembers_of_free rfl
  · intro x call hx p
    rcases memory_cases x call p with hm | ⟨-, hm | hm⟩ | ⟨delay, -, hm⟩ <;> rw [hm]
    · exact hx p
    · exact (hx p).edge p _
    · exact Memory.remembers_of_free rfl
    · exact hx p

/-- From any state between two clock cycles a controller that keeps requesting a memory out of
reset is ready within three turns of the memory's delay, at once or right after one of the cycles,
whatever is done before each of them that spares it. Until then no two others hold the memory's
grant more than once each, with the one counted that may hold it from before. -/
theorem ready_within_rounds (hx : x.Reached) (hc : x.clock = false) (hl : x.lastClock = false)
    (hr : x.resetLevel = true) (hreq : Device.request x c = true) (hp : (x.selected c).1 = p)
    {rounds : List (List Call)}
    (hrounds : 3 * (x.memories.get p).delay + 3 ≤ rounds.length)
    (hspares : ∀ calls ∈ rounds, ∀ call ∈ calls, call.spares c p = true) :
    ∃ n, n ≤ 3 * (x.memories.get p).delay + 3 ∧
      Device.ready (x.eval.afterRounds (rounds.take n)) c = true ∧
      (∀ m, m < n → Device.ready (x.eval.afterRounds (rounds.take m)) c = false) ∧
      let others := ((x.memories.get p).grant.toList ++ x.eval.grants p (rounds.take n)).filter
        (· != c)
      others.Nodup ∧ others.length ≤ 2 := by
  have hasks : x.Asks c p (x.memories.get p).delay := by
    rw [request_eq] at hreq
    rw [selected_eq] at hp
    exact ⟨hc, hl, hr, hreq, hp, rfl⟩
  have hm := hx.remembers p
  have hlatest : (x.memories.get p).latest c ≤ 3 * (x.memories.get p).delay + 3 := by
    by_cases hg : (x.memories.get p).grant = some c
    · rw [Memory.latest_granted hg]
      omega
    · exact Memory.latest_le hm hg
  have hserved := hasks.eval.served rounds (settled_eval x) hspares
  rw [hasks.memories_eval] at hserved
  obtain ⟨n, hn, hready, hfirst, happroach⟩ := hserved (Nat.le_trans hlatest hrounds)
  have hothers : Port.Approach c 3 (((x.memories.get p).grant.toList ++
      x.eval.grants p (rounds.take n)).filter (· != c)) := by
    rw [List.filter_append]
    cases hg : (x.memories.get p).grant with
    | none =>
      rw [Memory.turn, hg, if_neg nofun] at happroach
      exact happroach.mono (Port.stepsTo_le _ _)
    | some e =>
      rw [Memory.turn, hg, hm e hg] at happroach
      by_cases hec : e = c
      · rw [if_pos (congrArg some hec)] at happroach
        simpa [hec] using happroach.mono (Nat.zero_le 3)
      · rw [if_neg (by simpa using hec)] at happroach
        have hsteps := Port.stepsTo_le_of_ne hec
        simpa [hec] using happroach.cons (Nat.lt_succ_of_le hsteps)
  exact ⟨n, Nat.le_trans hn hlatest, hready, hfirst, hothers.nodup, hothers.length_le⟩

/-- While port 2 holds the grant, port 3 comes in, port 2 is redirected and withdraws, and both
come back. -/
theorem ready_within_rounds_of_rivals :
    let x := initial.after ([.setDelay 0 1, .drive .two .request 1] ++ clockCycle ++
      [.drive .one .request 1])
    let rounds : List (List Call) := [[.drive .three .request 1], [.drive .two .address 0x4000],
      [.drive .two .request 0], [.drive .two .address 0, .drive .two .request 1],
      [.drive .three .request 0], []]
    let p := AddressMap.standard.peripheral 0
    let c := Port.one
    (x.Reached ∧ x.clock = false ∧ x.lastClock = false ∧ x.resetLevel = true ∧
      Device.request x c = true ∧ (x.selected c).1 = p ∧
      3 * (x.memories.get p).delay + 3 ≤ rounds.length ∧
      ∀ calls ∈ rounds, ∀ call ∈ calls, call.spares c p = true) ∧
    ∃ n, n ≤ 3 * (x.memories.get p).delay + 3 ∧
      Device.ready (x.eval.afterRounds (rounds.take n)) c = true ∧
      (∀ m, m < n → Device.ready (x.eval.afterRounds (rounds.take m)) c = false) ∧
      let others := ((x.memories.get p).grant.toList ++ x.eval.grants p (rounds.take n)).filter
        (· != c)
      others.Nodup ∧ others.length ≤ 2 :=
  have hx := ⟨_, rfl⟩
  have hc := by decide +kernel
  have hl := by decide +kernel
  have hr := by decide +kernel
  have hreq := by decide +kernel
  have hp := by decide +kernel
  have hrounds := by decide +kernel
  have hspares := by decide +kernel
  ⟨⟨hx, hc, hl, hr, hreq, hp, hrounds, hspares⟩,
    ready_within_rounds hx hc hl hr hreq hp hrounds hspares⟩

end Crossbar

end CrossbarBench
