import CrossbarBench.Crossbar.Basic

/-! Grants of the memories. A clock edge serves and then arbitrates, and each of the two
can do few things. While every grant is held by a controller that requests the granted
memory, an edge transfers exactly what is answered, frees what it has transferred, and
leaves the grants with controllers that are not yet answered. -/

namespace CrossbarBench

namespace Memory

variable {m : Memory} {p : Peripheral} {controllers : Table 3 Inputs}

/-- The words once the transfer that is now answered has been made. -/
def committed (m : Memory) (controllers : Table 3 Inputs) : Table 4 Word :=
  (m.serve controllers).2.words

theorem answers_iff (m : Memory) (c : Port) :
    m.answers c = true ↔ m.grant = some c ∧ m.delay ≤ m.waited := by
  simp [answers]

theorem serve_none (h : m.grant = none) : m.serve controllers = (none, m) := by
  simp [serve, h]

theorem serve_withdrawn {c : Port} (h : m.grant = some c)
    (hr : (controllers.get c).request = false) :
    m.serve controllers = (none, { m with grant := none }) := by
  simp [serve, h, hr]

theorem serve_answered {c : Port} (h : m.grant = some c)
    (hr : (controllers.get c).request = true) (hd : m.delay ≤ m.waited) :
    m.serve controllers =
      (some c, { m with words := m.transfer (controllers.get c), grant := none }) := by
  simp [serve, h, hr, hd]

theorem serve_waiting {c : Port} (h : m.grant = some c)
    (hr : (controllers.get c).request = true) (hd : m.waited < m.delay) :
    m.serve controllers = (none, { m with waited := m.waited + 1 }) := by
  simp [serve, h, hr, Nat.not_le.mpr hd]

theorem arbitrate_granted {served : Option Port} {c : Port} (h : m.grant = some c) :
    m.arbitrate p controllers served = m := by
  simp [arbitrate, h]

/-- A free memory stays as it is or goes to an eligible controller. -/
theorem arbitrate_cases (p : Peripheral) (controllers : Table 3 Inputs) (served : Option Port)
    (h : m.grant = none) :
    m.arbitrate p controllers served = m ∨
      ∃ c, (Port.following m.lastGrant).find? (eligible p controllers served) = some c ∧
        m.arbitrate p controllers served =
          { m with grant := some c, waited := 0, lastGrant := c } := by
  unfold arbitrate
  rw [h, Option.isSome_none, if_neg Bool.false_ne_true]
  cases hf : (Port.following m.lastGrant).find? (eligible p controllers served) with
  | none => exact .inl rfl
  | some c => exact .inr ⟨c, rfl, rfl⟩

theorem eligible_iff {served : Option Port} {c : Port} :
    eligible p controllers served c = true ↔
      served ≠ some c ∧ (controllers.get c).request = true ∧
        (controllers.get c).target.1 = p := by
  simp [eligible, and_assoc]

theorem words_edge (m : Memory) (p : Peripheral) (controllers : Table 3 Inputs) :
    (m.edge p controllers).words = m.committed controllers :=
  words_arbitrate _ p controllers _

/-- A grant after an edge is an old one that still waits, or a new one given to a controller
that was not served. -/
theorem grant_edge {c : Port} (h : (m.edge p controllers).grant = some c) :
    (m.grant = some c ∧ (controllers.get c).request = true ∧ m.waited < m.delay) ∨
      ((controllers.get c).request = true ∧ (controllers.get c).target.1 = p ∧
        ¬ (m.grant = some c ∧ m.delay ≤ m.waited)) := by
  -- a memory that is free once it has served may be granted anew
  have hfree : ∀ (served : Option Port) (n : Memory), n.grant = none →
      (n.arbitrate p controllers served).grant = some c →
      served ≠ some c ∧ (controllers.get c).request = true ∧
        (controllers.get c).target.1 = p := by
    intro served n hn hg
    rcases arbitrate_cases p controllers served hn with ha | ⟨d, hf, ha⟩
    · rw [ha, hn] at hg
      cases hg
    · rw [ha] at hg
      obtain rfl : d = c := Option.some.inj hg
      exact eligible_iff.mp (List.find?_some hf)
  cases hm : m.grant with
  | none =>
    rw [edge, serve_none hm] at h
    obtain ⟨-, hr, ht⟩ := hfree _ _ hm h
    exact .inr ⟨hr, ht, by simp⟩
  | some d =>
    cases hr : (controllers.get d).request with
    | false =>
      rw [edge, serve_withdrawn hm hr] at h
      obtain ⟨-, hc, ht⟩ := hfree _ { m with grant := none } rfl h
      refine .inr ⟨hc, ht, ?_⟩
      rintro ⟨hd, -⟩
      rw [Option.some.inj hd, hc] at hr
      cases hr
    | true =>
      by_cases hd : m.delay ≤ m.waited
      · rw [edge, serve_answered hm hr hd] at h
        obtain ⟨hs, hc, ht⟩ :=
          hfree _ { m with words := m.transfer (controllers.get d), grant := none } rfl h
        exact .inr ⟨hc, ht, fun hg => hs hg.1⟩
      · have hlt := Nat.not_le.mp hd
        have hg : ({ m with waited := m.waited + 1 } : Memory).grant = some d := hm
        rw [edge, serve_waiting hm hr hlt] at h
        simp only [arbitrate_granted hg] at h
        obtain rfl : d = c := Option.some.inj (hm.symm.trans h)
        exact .inl ⟨rfl, hr, hlt⟩

end Memory

namespace Crossbar

variable {x : Crossbar} {c d : Port} {p : Peripheral}

theorem answered_iff (x : Crossbar) (c : Port) :
    x.answered c = true ↔ (x.controllers.get c).request = true ∧
      (x.memories.get (x.controllers.get c).target.1).grant = some c ∧
      (x.memories.get (x.controllers.get c).target.1).delay ≤
        (x.memories.get (x.controllers.get c).target.1).waited := by
  rw [← Memory.answers_iff, ← Bool.and_eq_true]
  rfl

/-- A peripheral answers one controller at a time. -/
theorem answered_inj (hc : x.answered c = true) (hd : x.answered d = true)
    (h : (x.controllers.get c).target.1 = (x.controllers.get d).target.1) : c = d := by
  obtain ⟨-, hgc, -⟩ := (answered_iff x c).mp hc
  obtain ⟨-, hgd, -⟩ := (answered_iff x d).mp hd
  rw [h] at hgc
  exact Option.some.inj (hgc.symm.trans hgd)

theorem memories_edge (x : Crossbar) (p : Peripheral) :
    x.edge.memories.get p =
      if x.resetLevel then (x.memories.get p).edge p x.controllers
      else (x.memories.get p).reset :=
  Table.get_ofFn _ p

/-- A memory is granted only to a controller that requests it. -/
def Coherent (x : Crossbar) : Prop :=
  ∀ p c, (x.memories.get p).grant = some c →
    (x.controllers.get c).request = true ∧ (x.controllers.get c).target.1 = p

/-- The words of a peripheral once every transfer that is now answered has been made. -/
def committed (x : Crossbar) (p : Peripheral) : Table 4 Word :=
  (x.memories.get p).committed x.controllers

theorem words_edge (h : x.resetLevel = true) (p : Peripheral) :
    (x.edge.memories.get p).words = x.committed p := by
  rw [memories_edge, if_pos h, Memory.words_edge]
  rfl

theorem committed_answered (h : x.answered c = true) :
    x.committed (x.controllers.get c).target.1 =
      (x.memories.get (x.controllers.get c).target.1).transfer (x.controllers.get c) := by
  obtain ⟨hr, hg, hd⟩ := (answered_iff x c).mp h
  rw [committed, Memory.committed, Memory.serve_answered hg hr hd]

namespace Coherent

theorem committed_idle (h : x.Coherent)
    (hp : ∀ c, x.answered c = true → (x.controllers.get c).target.1 ≠ p) :
    x.committed p = (x.memories.get p).words := by
  cases hg : (x.memories.get p).grant with
  | none => rw [committed, Memory.committed, Memory.serve_none hg]
  | some c =>
    obtain ⟨hr, ht⟩ := h p c hg
    have hd : (x.memories.get p).waited < (x.memories.get p).delay := by
      apply Nat.not_le.mp
      intro hd
      exact hp c ((answered_iff x c).mpr ⟨hr, by rwa [ht], by rwa [ht]⟩) ht
    rw [committed, Memory.committed, Memory.serve_waiting hg hr hd]

/-- After an edge every grant is held by a controller that was not answered before it. -/
theorem grant_edge (h : x.Coherent) (hr : x.resetLevel = true)
    (hg : (x.edge.memories.get p).grant = some c) :
    (x.controllers.get c).request = true ∧ (x.controllers.get c).target.1 = p ∧
      x.answered c = false := by
  rw [memories_edge, if_pos hr] at hg
  have hne : (x.controllers.get c).target.1 = p →
      ¬ ((x.memories.get p).grant = some c ∧
        (x.memories.get p).delay ≤ (x.memories.get p).waited) → x.answered c = false := by
    intro ht hn
    apply Bool.eq_false_iff.mpr
    intro ha
    rw [answered_iff, ht] at ha
    exact hn ha.2
  rcases Memory.grant_edge hg with ⟨hold, hreq, hlt⟩ | ⟨hreq, ht, hn⟩
  · have ht := (h p c hold).2
    exact ⟨hreq, ht, hne ht fun hd => absurd hd.2 (Nat.not_le.mpr hlt)⟩
  · exact ⟨hreq, ht, hne ht hn⟩

end Coherent

end Crossbar

end CrossbarBench
