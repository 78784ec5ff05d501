import CrossbarBench.Proofs.Crossbar.Readiness

/-! What a rising clock writes. A word changes only where a port that can write holds the grant
of the memory, with the delay over and its request and write enable high, and then it takes the
lanes that the port enables. The memory looks at the offset of the port's address but not at the
peripheral. So the port shows ready for what is written as long as its address has not been moved
to another peripheral under the grant, and only so long. -/

namespace CrossbarBench

namespace Memory

variable {m : Memory} {controllers : Table 3 Inputs} {o : Offset} {c : Port}

/-- What an edge writes for the port that it serves. -/
theorem get_committed (ha : m.answers c = true) (hr : (controllers.get c).request = true)
    (hw : (controllers.get c).writeEnable = true) (ho : (controllers.get c).target.2 = o) :
    (m.committed controllers).get o =
      Word.mergeLanes (m.words.get o) (controllers.get c).data (controllers.get c).enables := by
  obtain ⟨hg, hd⟩ := (answers_iff m c).mp ha
  rw [committed, serve_answered hg hr hd, transfer, hw, if_pos rfl, Table.get_modify]
  exact if_pos ho

/-- It writes for no other port, and only where that port's address says. -/
theorem committed_ne (h : (m.committed controllers).get o ≠ m.words.get o) :
    ∃ c, m.answers c = true ∧ (controllers.get c).request = true ∧
      (controllers.get c).writeEnable = true ∧ (controllers.get c).target.2 = o := by
  unfold committed at h
  cases hg : m.grant with
  | none =>
    rw [serve_none hg] at h
    exact absurd rfl h
  | some c =>
    cases hr : (controllers.get c).request with
    | false =>
      rw [serve_withdrawn hg hr] at h
      exact absurd rfl h
    | true =>
      by_cases hd : m.delay ≤ m.waited
      · rw [serve_answered hg hr hd] at h
        cases hw : (controllers.get c).writeEnable with
        | false =>
          rw [transfer, hw, if_neg Bool.false_ne_true] at h
          exact absurd rfl h
        | true =>
          rw [transfer, hw, if_pos rfl, Table.get_modify] at h
          refine ⟨c, (answers_iff m c).mpr ⟨hg, hd⟩, hr, hw, ?_⟩
          by_contra ho
          exact h (if_neg ho)
      · rw [serve_waiting hg hr (Nat.not_le.mp hd)] at h
        exact absurd rfl h

end Memory

namespace Crossbar

/-- A port puts a word with its lanes into a memory: it can write, shows request and write enable,
and holds the memory's grant with the delay over. -/
structure Puts (x : Crossbar) (p : Peripheral) (o : Offset) (new : Word) (c : Port) : Prop where
  canWrite : Device.canWrite x c = true
  request : Device.request x c = true
  writeEnable : Device.writeEnable? x c = some true
  grant : (x.memories.get p).grant = some c
  delay : (x.memories.get p).delay ≤ (x.memories.get p).waited
  offset : (x.selected c).2 = o
  merged : ∃ enables data, Device.byteEnables? x c = some enables ∧
    Device.writeData? x c = some data ∧
    new = Word.mergeLanes ((x.memories.get p).words.get o) data enables

/-- What is written where the address selects is written on a handshake. -/
theorem Puts.ready {x : Crossbar} {p : Peripheral} {o : Offset} {new : Word} {c : Port}
    (h : x.eval.Puts p o new c) (hp : (x.eval.selected c).1 = p) :
    Device.ready x.eval c = true := by
  apply ((settled_eval x).exclusive.asked c h.request).mpr
  rw [Granted, hp]
  exact ⟨h.grant, h.delay⟩

/-- What the edge owes to a port that is granted and writes. -/
theorem puts_of_granted {x : Crossbar} (hf : ∀ c, (x.controllers.get c).Fits c)
    {p : Peripheral} {o : Offset} {c : Port} (hg : (x.memories.get p).answers c = true)
    (hr : (x.controllers.get c).request = true) (hw : (x.controllers.get c).writeEnable = true)
    (ho : (x.controllers.get c).target.2 = o) : x.Puts p o ((x.committed p).get o) c := by
  have hcan : Crossbar.canWrite c = true := by
    by_contra hno
    have hlow := ((hf c).readOnly (by simpa using hno)).1
    rw [hw] at hlow
    cases hlow
  obtain ⟨hgrant, hdelay⟩ := (Memory.answers_iff _ c).mp hg
  refine ⟨hcan, ?_, ?_, hgrant, hdelay, ?_, (x.controllers.get c).enables,
    (x.controllers.get c).data, ?_, ?_, Memory.get_committed hg hr hw ho⟩
  · rw [request_eq, hr]
  · rw [writeEnable?_eq, if_pos hcan, hw]
  · rw [selected_eq]
    exact ho
  · rw [byteEnables?_eq, if_pos hcan, (hf c).enables]
  · rw [writeData?_eq, if_pos hcan]

/-- What a port writes on a handshake it puts where its address selects. -/
theorem puts_of_handshake {x : Crossbar} (hf : ∀ c, (x.eval.controllers.get c).Fits c)
    {p : Peripheral} {o : Offset} {c : Port} (hreq : Device.request x.eval c = true)
    (hready : Device.ready x.eval c = true) (hwrite : Device.writeEnable? x.eval c = some true)
    (hsel : x.eval.selected c = (p, o)) : x.eval.Puts p o ((x.eval.committed p).get o) c := by
  have ha := ((settled_eval x).ready_iff_answered hreq).mp hready
  have hgranted := ((Bool.and_eq_true _ _).mp ha).2
  have hw : (x.eval.controllers.get c).writeEnable = true := by
    rw [writeEnable?_eq] at hwrite
    split at hwrite
    · exact Option.some.inj hwrite
    · cases hwrite
  rw [selected_eq] at hsel
  rw [hsel] at hgranted
  exact puts_of_granted hf hgranted ((answered_iff x.eval c).mp ha).1 hw (congrArg Prod.snd hsel)

end Crossbar

namespace Testbench

variable {b : Testbench Crossbar}

/-- A rising clock out of reset writes what is handshaken, as the evaluation before the rise shows
it. A word changes only where some port puts it there. That port then shows a handshake for this
very word, unless its address has been moved to another peripheral while it held the grant. -/
theorem rise_writes_granted (hb : b.Reached) (hc : b.device.clock = false)
    (hr : b.device.resetLevel = true) (p : Peripheral) (o : Offset) :
    let old := b.device.eval
    let new := (b.rise.device.memories.get p).words.get o
    (∀ c, Device.request old c = true → Device.ready old c = true →
      Device.writeEnable? old c = some true → old.selected c = (p, o) → old.Puts p o new c) ∧
    (new ≠ (old.memories.get p).words.get o →
      ∃ c, old.Puts p o new c ∧ ((old.selected c).1 = p → Device.ready old c = true)) := by
  intro old new
  have hs : old.SameSetup b.device := Crossbar.SameSetup.eval b.device
  have hm : old.memories = b.device.memories := by
    rw [Crossbar.memories_eval, hc, Bool.false_and, if_neg Bool.false_ne_true]
  have hnew : new = (old.committed p).get o := by
    have hlevel : old.resetLevel = true := hs.resetLevel.trans hr
    rw [← Crossbar.words_edge hlevel, hs.edge_congr hm, ← memories_rise hc]
  have hf : ∀ c, (old.controllers.get c).Fits c := by
    rw [hs.controllers]
    exact hb.device.fits
  rw [hnew]
  constructor
  · intro c hreq hready hwrite hsel
    exact Crossbar.puts_of_handshake hf hreq hready hwrite hsel
  · intro h
    obtain ⟨c, ha, hreq, hw, ho⟩ := Memory.committed_ne h
    have hput := Crossbar.puts_of_granted hf ha hreq hw ho
    exact ⟨c, hput, hput.ready⟩

/-- Port 2 writes to the second word of peripheral 0, which it holds the grant of, while its
address selects peripheral 1. -/
theorem rise_writes_granted_of_redirected :
    let b := (new Crossbar.initial).after
      [.setRequest .two true, .driveWrite .two 0xF 7, .toStimulus, .setAddress .two 0x4001,
        .toResponse]
    let p := AddressMap.standard.peripheral 0
    let o := AddressMap.offset 1
    let old := b.device.eval
    let new := (b.rise.device.memories.get p).words.get o
    (b.Reached ∧ b.device.clock = false ∧ b.device.resetLevel = true) ∧
    (∀ c, Device.request old c = true → Device.ready old c = true →
      Device.writeEnable? old c = some true → old.selected c = (p, o) → old.Puts p o new c) ∧
    (new ≠ (old.memories.get p).words.get o →
      ∃ c, old.Puts p o new c ∧ ((old.selected c).1 = p → Device.ready old c = true)) :=
  have hb := ⟨Crossbar.initial, _, ⟨[], rfl⟩, rfl⟩
  have hc := by decide +kernel
  have hr := by decide +kernel
  ⟨⟨hb, hc, hr⟩, rise_writes_granted hb hc hr _ _⟩

/-- The word changes there although no port has shown ready before the rise, so it is not true
that a word changes only on a handshake. -/
theorem rise_writes_unanswered :
    let b := (new Crossbar.initial).after
      [.setRequest .two true, .driveWrite .two 0xF 7, .toStimulus, .setAddress .two 0x4001,
        .toResponse]
    b.device.spurious = none ∧ b.device.clock = false ∧ b.device.resetLevel = true ∧
      b.device.eval.word 0 1 = .ok 0xF1BEF1BE ∧ b.rise.device.word 0 1 = .ok 7 ∧
      ∀ c, Device.ready b.device.eval c = false := by
  decide +kernel

end Testbench

end CrossbarBench
