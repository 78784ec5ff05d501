import CrossbarBench.Proofs.Crossbar.Grants

/-! How long a memory lets a controller wait. A free memory goes to the next eligible controller
in round-robin order, and every grant brings the turn of a waiting controller nearer. So the
edges until it is answered are bounded from both sides, and each edge takes one off both
bounds. -/

namespace CrossbarBench

namespace Port

/-- The steps from a port to another in round-robin order. Back to the port itself there are
three. -/
def stepsTo (last c : Port) : Nat := (c.val + 2 - last.val) % 3 + 1

theorem stepsTo_pos (last c : Port) : 1 ≤ stepsTo last c := Nat.le_add_left 1 _

theorem stepsTo_le (last c : Port) : stepsTo last c ≤ 3 := by
  revert last c; decide

theorem stepsTo_le_of_ne {last c : Port} (h : last ≠ c) : stepsTo last c ≤ 2 := by
  revert last c; decide

/-- From a port to a later one of the order there are fewer steps left. -/
theorem following_pairwise (last : Port) :
    (following last).Pairwise fun d c => stepsTo d c < stepsTo last c := by
  revert last; decide

/-- Who is chosen in place of a port brings its turn nearer. -/
theorem find?_following {f : Port → Bool} {c : Port} (hc : f c = true) (last : Port) :
    ∃ d, (following last).find? f = some d ∧
      (d = c ∨ stepsTo d c < stepsTo last c) := by
  have hsome : ((following last).find? f).isSome = true :=
    List.find?_isSome.mpr ⟨c, mem_following last c, hc⟩
  obtain ⟨d, hd⟩ := Option.isSome_iff_exists.mp hsome
  refine ⟨d, hd, ?_⟩
  obtain ⟨-, before, after, hl, hb⟩ := List.find?_eq_some_iff_append.mp hd
  have hmem := mem_following last c
  have hpair := following_pairwise last
  rw [hl] at hmem hpair
  rcases List.mem_append.mp hmem with h | h
  · have hn := hb c h
    rw [hc] at hn
    cases hn
  · rcases List.mem_cons.mp h with rfl | h
    · exact .inl rfl
    · exact .inr ((List.pairwise_cons.mp (List.pairwise_append.mp hpair).2.1).1 c h)

end Port

namespace Memory

variable {m : Memory} {p : Peripheral} {controllers : Table 3 Inputs} {c : Port}

/-- The last grant is remembered while it is held. -/
def Remembers (m : Memory) : Prop := ∀ c, m.grant = some c → m.lastGrant = c

/-- Edges until a controller that keeps requesting the memory is answered, at the soonest. -/
def soonest (m : Memory) (c : Port) : Nat :=
  if m.grant = some c then m.delay - m.waited else m.delay + 1

/-- Edges until a controller that keeps requesting the memory is answered, at the latest: all
others that come before it in the order may be served first. -/
def latest (m : Memory) (c : Port) : Nat :=
  if m.grant = some c then m.delay - m.waited
  else (if m.grant.isSome then m.delay - m.waited else 0) +
    Port.stepsTo m.lastGrant c * (m.delay + 1)

theorem soonest_granted (h : m.grant = some c) : m.soonest c = m.delay - m.waited := if_pos h

theorem latest_granted (h : m.grant = some c) : m.latest c = m.delay - m.waited := if_pos h

theorem soonest_waiting (h : m.grant ≠ some c) : m.soonest c = m.delay + 1 := if_neg h

theorem latest_waiting (h : m.grant ≠ some c) : m.latest c =
    (if m.grant.isSome then m.delay - m.waited else 0) +
      Port.stepsTo m.lastGrant c * (m.delay + 1) := if_neg h

theorem soonest_of_answers (h : m.answers c = true) : m.soonest c = 0 := by
  obtain ⟨hg, hd⟩ := (answers_iff m c).mp h
  rw [soonest_granted hg, Nat.sub_eq_zero_of_le hd]

theorem latest_eq_zero_iff (m : Memory) (c : Port) : m.latest c = 0 ↔ m.answers c = true := by
  rw [answers_iff]
  by_cases hg : m.grant = some c
  · rw [latest_granted hg, Nat.sub_eq_zero_iff_le]
    exact ⟨fun h => ⟨hg, h⟩, fun h => h.2⟩
  · have hpos := Nat.mul_pos (Port.stepsTo_pos m.lastGrant c) (Nat.succ_pos m.delay)
    rw [latest_waiting hg]
    constructor
    · intro h
      exact absurd (Nat.eq_zero_of_add_eq_zero_left h) (Nat.ne_of_gt hpos)
    · exact fun h => absurd h.1 hg

/-- A controller that has just come waits for two others at most. -/
theorem latest_le (hm : m.Remembers) (h : m.grant ≠ some c) : m.latest c ≤ 3 * m.delay + 3 := by
  rw [latest_waiting h]
  cases hg : m.grant with
  | none =>
    have hs := Nat.mul_le_mul_right (m.delay + 1) (Port.stepsTo_le m.lastGrant c)
    rw [Option.isSome_none, if_neg Bool.false_ne_true]
    omega
  | some d =>
    have hne : m.lastGrant ≠ c := fun hl => h (by rw [hg, ← hm d hg, hl])
    have hs := Nat.mul_le_mul_right (m.delay + 1) (Port.stepsTo_le_of_ne hne)
    rw [Option.isSome_some, if_pos rfl]
    omega

/-- An edge waits for the granted controller or frees the memory for the next one. -/
theorem edge_cases (m : Memory) (p : Peripheral) (controllers : Table 3 Inputs) :
    (∃ d, m.grant = some d ∧ (controllers.get d).request = true ∧ m.waited < m.delay ∧
      m.edge p controllers = { m with waited := m.waited + 1 }) ∨
    ∃ words served,
      m.edge p controllers =
        ({ m with words := words, grant := none } : Memory).arbitrate p controllers served ∧
      (∀ d, served = some d → m.grant = some d) ∧
      (∀ d, m.grant = some d → (controllers.get d).request = true → m.delay ≤ m.waited) := by
  cases hg : m.grant with
  | none =>
    refine .inr ⟨m.words, none, ?_, nofun, nofun⟩
    rw [edge, serve_none hg, ← hg]
  | some d =>
    cases hr : (controllers.get d).request with
    | false =>
      refine .inr ⟨m.words, none, ?_, nofun, ?_⟩
      · rw [edge, serve_withdrawn hg hr]
      · intro e he hre
        rw [← Option.some.inj he, hr] at hre
        cases hre
    | true =>
      by_cases hd : m.delay ≤ m.waited
      · refine .inr ⟨m.transfer (controllers.get d), some d, ?_, fun _ h => h, fun _ _ _ => hd⟩
        rw [edge, serve_answered hg hr hd]
      · have hlt := Nat.not_le.mp hd
        have hw : ({ m with waited := m.waited + 1 } : Memory).grant = some d := hg
        refine .inl ⟨d, rfl, hr, hlt, ?_⟩
        rw [edge, serve_waiting hg hr hlt]
        exact (arbitrate_granted hw).trans (by rw [← hg])

/-- A grant after an edge has been waited for one edge more, or it is new. -/
theorem waited_edge (h : (m.edge p controllers).grant = some c) :
    (m.grant = some c ∧ m.waited < m.delay ∧ (m.edge p controllers).waited = m.waited + 1) ∨
      (m.edge p controllers).waited = 0 := by
  rcases edge_cases m p controllers with ⟨d, hg, -, hlt, he⟩ | ⟨words, served, he, -, -⟩
  · rw [he] at h ⊢
    exact .inl ⟨h, hlt, rfl⟩
  · rw [he] at h ⊢
    rcases arbitrate_cases (m := { m with words := words, grant := none }) p controllers served
      rfl with ha | ⟨d, -, ha⟩
    · rw [ha] at h
      cases h
    · rw [ha]
      exact .inr rfl

/-- A memory that is free when a controller is eligible is granted, to it or to one that brings
its turn nearer. -/
theorem arbitrate_eligible {served : Option Port} (hg : m.grant = none)
    (hc : eligible p controllers served c = true) :
    ∃ d, m.arbitrate p controllers served =
        { m with grant := some d, waited := 0, lastGrant := d } ∧
      (d = c ∨ Port.stepsTo d c < Port.stepsTo m.lastGrant c) := by
  obtain ⟨d, hd, hs⟩ := Port.find?_following hc m.lastGrant
  refine ⟨d, ?_, hs⟩
  rw [arbitrate, hg, Option.isSome_none, if_neg Bool.false_ne_true, hd]

/-- While the granted controller is waited for, everyone's turn comes an edge nearer. -/
theorem bounds_held {d : Port} (hg : m.grant = some d) (hlt : m.waited < m.delay) (c : Port) :
    m.soonest c ≤ ({ m with waited := m.waited + 1 } : Memory).soonest c + 1 ∧
      ({ m with waited := m.waited + 1 } : Memory).latest c + 1 ≤ m.latest c := by
  have hg' : ({ m with waited := m.waited + 1 } : Memory).grant = some d := hg
  by_cases hdc : d = c
  · subst hdc
    rw [soonest_granted hg, latest_granted hg, soonest_granted hg', latest_granted hg']
    dsimp only
    omega
  · have hne : m.grant ≠ some c := by simpa [hg] using hdc
    have hne' : ({ m with waited := m.waited + 1 } : Memory).grant ≠ some c := hne
    rw [soonest_waiting hne, latest_waiting hne, soonest_waiting hne', latest_waiting hne', hg,
      Option.isSome_some, if_pos rfl, if_pos rfl]
    dsimp only
    omega

/-- So it does when the memory is granted anew, to the controller or to one before it. -/
theorem bounds_granted {d : Port} (hne : m.grant ≠ some c)
    (hturn : d = c ∨ Port.stepsTo d c < Port.stepsTo m.lastGrant c) (words : Table 4 Word) :
    let granted : Memory := { m with words := words, grant := some d, waited := 0, lastGrant := d }
    m.soonest c ≤ granted.soonest c + 1 ∧ granted.latest c + 1 ≤ m.latest c := by
  intro granted
  rw [soonest_waiting hne, latest_waiting hne]
  by_cases hdc : d = c
  · subst hdc
    have hpos := Nat.mul_le_mul_right (m.delay + 1) (Port.stepsTo_pos m.lastGrant d)
    rw [soonest_granted rfl, latest_granted rfl]
    dsimp only [granted]
    omega
  · have hne' : some d ≠ some c := by simpa using hdc
    have hlt := Nat.mul_le_mul_right (m.delay + 1) (hturn.resolve_left hdc)
    rw [Nat.succ_mul] at hlt
    rw [soonest_waiting hne', latest_waiting hne', if_pos (Option.isSome_some)]
    dsimp only [granted]
    omega

/-- An edge takes one off the bounds of a controller that is not yet answered, whatever the
others request. -/
theorem bounds_edge (hc : (controllers.get c).request = true)
    (ht : (controllers.get c).target.1 = p) (ha : m.answers c = false) :
    m.soonest c ≤ (m.edge p controllers).soonest c + 1 ∧
      (m.edge p controllers).latest c + 1 ≤ m.latest c := by
  rcases edge_cases m p controllers with
    ⟨d, hg, -, hlt, he⟩ | ⟨words, served, he, hserved, hdue⟩
  · rw [he]
    exact bounds_held hg hlt c
  · have hne : m.grant ≠ some c := fun hg => by
      rw [Bool.eq_false_iff, Ne, answers_iff] at ha
      exact ha ⟨hg, hdue c hg hc⟩
    obtain ⟨d, had, hturn⟩ := arbitrate_eligible (m := { m with words := words, grant := none })
      rfl (eligible_iff.mpr ⟨fun h => hne (hserved c h), hc, ht⟩)
    rw [he, had]
    exact bounds_granted hne hturn words

theorem remembers_of_free (h : m.grant = none) : m.Remembers := fun c hc => by
  rw [h] at hc
  cases hc

theorem Remembers.edge (hm : m.Remembers) (p : Peripheral) (controllers : Table 3 Inputs) :
    (m.edge p controllers).Remembers := by
  rcases edge_cases m p controllers with ⟨d, -, -, -, he⟩ | ⟨words, served, he, -, -⟩
  · rw [he]
    exact hm
  · rw [he]
    rcases arbitrate_cases (m := { m with words := words, grant := none }) p controllers served
      rfl with ha | ⟨d, -, ha⟩
    · rw [ha]
      exact remembers_of_free rfl
    · rw [ha]
      exact fun c hc => Option.some.inj hc

end Memory

end CrossbarBench
