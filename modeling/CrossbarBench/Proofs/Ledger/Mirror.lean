import CrossbarBench.Proofs.Crossbar.Iteration
import CrossbarBench.Proofs.Ledger.Replay

/-! The shadow memory and the memories of a crossbar in one response phase. The bench
absorbs answers port by port, the crossbar will transfer them peripheral by peripheral on the
next edge. Since a peripheral answers one controller at a time, the two orders give the same
words, and every read sees in the shadow memory the word that its memory holds. -/

namespace CrossbarBench

namespace Crossbar

variable {x : Crossbar} {s : Shadow} {c : Port} {k : Nat} {done : List Port}

/-- The shadow memory holds the words of the crossbar, with the answers to the ports in `done`
already absorbed. -/
structure Mirrored (x : Crossbar) (done : List Port) (s : Shadow) : Prop where
  map : s.map = .standard
  made : ∀ c ∈ done, x.answered c = true →
    s.words.get (x.controllers.get c).target.1 = x.committed (x.controllers.get c).target.1
  kept : ∀ p, (∀ c ∈ done, x.answered c = true → (x.controllers.get c).target.1 ≠ p) →
    s.words.get p = (x.memories.get p).words

namespace Mirrored

/-- The memory that answers a port is still untouched in the shadow memory. -/
theorem words_answered (h : x.Mirrored done s) (hc : c ∉ done) (ha : x.answered c = true) :
    s.words.get (x.controllers.get c).target.1 =
      (x.memories.get (x.controllers.get c).target.1).words := by
  apply h.kept
  intro d hd hda ht
  exact hc (answered_inj hda ha ht ▸ hd)

theorem expected_answered (h : x.Mirrored done s) (hc : c ∉ done) (ha : x.answered c = true) :
    s.expected (x.controllers.get c).address =
      (x.memories.get (x.controllers.get c).target.1).words.get
        (x.controllers.get c).target.2 := by
  rw [← h.words_answered hc ha, Shadow.expected, h.map]
  rfl

/-- Absorbing an answer makes in the shadow memory the transfer that the crossbar owes. -/
theorem words_absorb (h : x.Mirrored done s) (hc : c ∉ done) (ha : x.answered c = true)
    (p : Peripheral) :
    (s.absorb ((x.answer c).completion k c)).words.get p =
      if (x.controllers.get c).target.1 = p then x.committed p else s.words.get p := by
  have hm : s.map.peripheral (x.controllers.get c).address =
      (x.controllers.get c).target.1 := by rw [h.map]; rfl
  have hw := h.words_answered hc ha
  have ht := committed_answered ha
  cases hwe : (x.controllers.get c).writeEnable with
  | false =>
    have he : s.absorb ((x.answer c).completion k c) = s := by
      simp [Shadow.absorb, Handshake.completion, answer, hwe]
    rw [he]
    split
    · rename_i hp
      rw [← hp, ht, hw, Memory.transfer, hwe, if_neg Bool.false_ne_true]
    · rfl
  | true =>
    have he : s.absorb ((x.answer c).completion k c) =
        (s.write (x.controllers.get c).address (x.controllers.get c).enables
          (x.controllers.get c).data).2 := by
      simp [Shadow.absorb, Handshake.completion, answer, hwe]
    rw [he, Shadow.write]
    dsimp only
    rw [Table.get_modify, hm]
    split
    · rename_i hp
      subst hp
      rw [ht, hw, Memory.transfer, hwe, if_pos rfl]
      rfl
    · rfl

theorem absorb (h : x.Mirrored done s) (hc : c ∉ done) (ha : x.answered c = true) :
    x.Mirrored (done ++ [c]) (s.absorb ((x.answer c).completion k c)) where
  map := (Shadow.map_absorb s _).trans h.map
  made d hd hda := by
    rw [h.words_absorb hc ha]
    split
    · rfl
    · rename_i hne
      rcases List.mem_append.mp hd with hd | hd
      · exact h.made d hd hda
      · rw [List.mem_singleton.mp hd] at hne
        exact absurd rfl hne
  kept p hp := by
    rw [h.words_absorb hc ha, if_neg (hp c (by simp) ha)]
    exact h.kept p fun d hd => hp d (List.mem_append_left _ hd)

theorem skip (h : x.Mirrored done s) (ha : x.answered c = false) :
    x.Mirrored (done ++ [c]) s where
  map := h.map
  made d hd hda := by
    rcases List.mem_append.mp hd with hd | hd
    · exact h.made d hd hda
    · rw [List.mem_singleton.mp hd, ha] at hda
      cases hda
  kept p hp := h.kept p fun d hd => hp d (List.mem_append_left _ hd)

/-- A crossbar that does not corrupt gives no cause for an objection. -/
theorem objection?_answer (h : x.Mirrored done s) (hc : c ∉ done) (ha : x.answered c = true)
    (hx : x.corruption = 0) : s.objection? ((x.answer c).completion k c) = none := by
  have hr : x.readWord c = s.expected (x.controllers.get c).address := by
    rw [h.expected_answered hc ha, readWord, if_pos ha]
    simp [hx]
  cases hw : (x.controllers.get c).writeEnable with
  | true => simp [Shadow.objection?, Handshake.completion, answer, hw]
  | false => simp [Shadow.objection?, Handshake.completion, answer, hw, hr]

/-- A port that is yet to come has not been absorbed. -/
theorem not_mem_of_nodup {ports : List Port} (hn : (done ++ c :: ports).Nodup) : c ∉ done :=
  fun hd => (List.nodup_append.mp hn).2.2 c hd c List.mem_cons_self rfl

/-- The answers to further ports, absorbed in their order. -/
theorem foldl_absorb (h : x.Mirrored done s) (ports : List Port)
    (hn : (done ++ ports).Nodup) :
    x.Mirrored (done ++ ports)
      (((ports.filter x.answered).map fun c => (x.answer c).completion k c).foldl
        Shadow.absorb s) := by
  induction ports generalizing done s with
  | nil =>
    rw [List.append_nil]
    exact h
  | cons c ports ih =>
    have hc := not_mem_of_nodup hn
    rw [← List.singleton_append, ← List.append_assoc] at hn ⊢
    rw [List.singleton_append, List.filter_cons]
    split
    · rename_i ha
      exact ih (h.absorb hc ha) hn
    · rename_i ha
      exact ih (h.skip (by simpa using ha)) hn

theorem objections_answers (h : x.Mirrored done s) (ports : List Port)
    (hn : (done ++ ports).Nodup) (hx : x.corruption = 0) :
    s.objections ((ports.filter x.answered).map fun c => (x.answer c).completion k c) = [] := by
  induction ports generalizing done s with
  | nil => rfl
  | cons c ports ih =>
    have hc := not_mem_of_nodup hn
    rw [← List.singleton_append, ← List.append_assoc] at hn
    rw [List.filter_cons]
    split
    · rename_i ha
      rw [List.map_cons, Shadow.objections, h.objection?_answer hc ha hx, ih (h.absorb hc ha) hn]
      rfl
    · rename_i ha
      exact ih (h.skip (by simpa using ha)) hn

end Mirrored

/-- With all answers absorbed the shadow memory is ahead of the crossbar by one edge. -/
theorem words_foldl_absorb (hx : x.Coherent) (hm : s.map = .standard)
    (hw : ∀ p, s.words.get p = (x.memories.get p).words) (p : Peripheral) :
    (((Port.all.filter x.answered).map fun c => (x.answer c).completion k c).foldl
      Shadow.absorb s).words.get p = x.committed p := by
  have h0 : x.Mirrored [] s := ⟨hm, nofun, fun p _ => hw p⟩
  have h := h0.foldl_absorb (k := k) Port.all (by decide)
  by_cases hp : ∃ c, x.answered c = true ∧ (x.controllers.get c).target.1 = p
  · obtain ⟨c, ha, rfl⟩ := hp
    exact h.made c (Port.mem_all c) ha
  · have hne : ∀ c, x.answered c = true → (x.controllers.get c).target.1 ≠ p :=
      fun c ha ht => hp ⟨c, ha, ht⟩
    rw [hx.committed_idle hne]
    exact h.kept p fun c _ => hne c

end Crossbar

end CrossbarBench
