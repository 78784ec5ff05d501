import CrossbarBench.Proofs.Crossbar.Service
import CrossbarBench.Proofs.Ledger.Faults

/-! What does not depend on timing. Delays decide in which order the ports come to a memory, and
so how their completions are interleaved. But a word is changed only by the writes to it. Where
these all come from one port, the word is the same after the whole ledger as after the entries of
that port alone. So ports that do not write what others ask for get the same answers in every run
that ends, and leave the same words. -/

namespace CrossbarBench

namespace AddressMap

/-- An address that selects a word. -/
def locate (p : Peripheral) (o : Offset) : Word := standard.base p.val + BitVec.ofNat 32 o.val

theorem decode_locate (p : Peripheral) (o : Offset) : standard.decode (locate p o) = (p, o) := by
  revert p o
  decide

end AddressMap

namespace Completion

/-- What was done, but not when or by whom. -/
def deed (c : Completion) : Word × Access := (c.address, c.access)

/-- The completion is a write to the word that an address selects. -/
def WritesTo (map : AddressMap) (a : Word) (c : Completion) : Prop :=
  (∃ enables data, c.access = .write enables data) ∧ map.decode c.address = map.decode a

/-- What a completion makes of the word that an address selects. -/
def amend (map : AddressMap) (a word : Word) (c : Completion) : Word :=
  match c.access with
  | .read _ => word
  | .write enables data =>
    if map.decode c.address = map.decode a then Word.mergeLanes word data enables else word

theorem amend_of_not_writesTo {map : AddressMap} {a : Word} {c : Completion}
    (h : ¬ c.WritesTo map a) (word : Word) : c.amend map a word = word := by
  unfold amend
  split
  · rfl
  · rename_i enables data hc
    exact if_neg fun hd => h ⟨⟨enables, data, hc⟩, hd⟩

end Completion

namespace Shadow

variable {map : AddressMap} {mask : Word} {ledger ledger' : List Completion}

/-! ### One word -/

theorem ext_expected {s t : Shadow} (hs : s.map = .standard) (ht : t.map = .standard)
    (h : ∀ a, s.expected a = t.expected a) : s = t := by
  have hword : ∀ p o, (s.words.get p).get o = (t.words.get p).get o := by
    intro p o
    obtain ⟨hp, ho⟩ := Prod.mk.inj (AddressMap.decode_locate p o)
    have ha := h (AddressMap.locate p o)
    rwa [expected, expected, hs, ht, hp, ho] at ha
  have hw : s.words = t.words := Table.ext_get fun p => Table.ext_get (hword p)
  cases s
  cases t
  cases hs.trans ht.symm
  cases hw
  rfl

theorem expected_absorb (s : Shadow) (c : Completion) (a : Word) :
    (s.absorb c).expected a = c.amend s.map a (s.expected a) := by
  cases hc : c.access with
  | read data => simp only [absorb, Completion.amend, hc]
  | write enables data =>
    simp only [absorb, Completion.amend, hc]
    rw [expected_write]
    split
    · rename_i hd
      rw [← expected_congr hd]
      rfl
    · rfl

/-- A word is what the ledger makes of its first content. -/
theorem expected_foldl_absorb (ledger : List Completion) (s : Shadow) (a : Word) :
    (ledger.foldl absorb s).expected a =
      ledger.foldl (Completion.amend s.map a) (s.expected a) := by
  induction ledger generalizing s with
  | nil => rfl
  | cons c ledger ih => rw [List.foldl_cons, ih, map_absorb, expected_absorb, List.foldl_cons]

/-- Of the ledger only the writes to a word matter for it. -/
theorem expected_replay_filter {a : Word} (keep : Completion → Bool)
    (h : ∀ c ∈ ledger, c.WritesTo map a → keep c = true) :
    (replay map (ledger.filter keep)).expected a = (replay map ledger).expected a := by
  rw [replay, replay, expected_foldl_absorb, expected_foldl_absorb, List.foldl_filter]
  refine List.foldl_ext _ _ _ fun word c hc => ?_
  split
  · rfl
  · rename_i hk
    exact (Completion.amend_of_not_writesTo (fun hw => hk (h c hc hw)) word).symm

/-! ### The ledger of one port -/

theorem absorb_congr {c c' : Completion} (h : c.deed = c'.deed) (s : Shadow) :
    s.absorb c = s.absorb c' := by
  obtain ⟨ha, hc⟩ := Prod.mk.inj h
  rw [absorb, absorb, ha, hc]

/-- A replay looks only at what was done. -/
theorem replay_congr (h : ledger.map Completion.deed = ledger'.map Completion.deed) :
    replay map ledger = replay map ledger' := by
  unfold replay
  generalize fresh map = s
  induction ledger generalizing ledger' s with
  | nil => rw [List.map_eq_nil_iff.mp h.symm]
  | cons c ledger ih =>
    obtain ⟨c', rest, rfl, hc, hr⟩ := List.map_eq_cons_iff.mp h.symm
    rw [List.foldl_cons, List.foldl_cons, absorb_congr hc, ih hr.symm]

/-- Every read carries the word that the writes before it leave, with the bits of a mask
flipped. -/
def Truthful (map : AddressMap) (mask : Word) (ledger : List Completion) : Prop :=
  ∀ before c after data, ledger = before ++ c :: after → c.access = .read data →
    data = (replay map before).expected c.address ^^^ mask

/-- Entries that keep to words which nothing else writes are truthful by themselves. -/
theorem Truthful.filter (h : Truthful map mask ledger) (keep : Completion → Bool)
    (hk : ∀ c ∈ ledger, keep c = true → ∀ e ∈ ledger, e.WritesTo map c.address → keep e = true) :
    Truthful map mask (ledger.filter keep) := by
  intro before c after data he hr
  obtain ⟨first, rest, rfl, rfl, hrest⟩ := List.filter_eq_append_iff.mp he
  obtain ⟨skipped, last, rfl, hskip, hc, rfl⟩ := List.filter_eq_cons_iff.mp hrest
  have hsplit : first ++ (skipped ++ c :: last) = (first ++ skipped) ++ c :: last :=
    (List.append_assoc ..).symm
  have hfirst : (first ++ skipped).filter keep = first.filter keep := by
    rw [List.filter_append, List.filter_eq_nil_iff.mpr hskip, List.append_nil]
  rw [h (first ++ skipped) c last data hsplit hr, ← hfirst, expected_replay_filter]
  intro e hm hw
  refine hk c (by simp) hc e ?_ hw
  rw [hsplit]
  exact List.mem_append_left _ hm

/-- A ledger with no mismatches is truthful up to bits that are flipped in all its reads. -/
theorem truthful_corrupt (h : mismatches map ledger = []) (mask : Word) :
    Truthful map mask (ledger.map (Completion.corrupt mask)) := by
  intro before c after data he hr
  obtain ⟨before, rest, rfl, rfl, hrest⟩ := List.map_eq_append_iff.mp he
  obtain ⟨c, after, rfl, rfl, rfl⟩ := List.map_eq_cons_iff.mp hrest
  have hreplay : replay map (before.map (Completion.corrupt mask)) = replay map before := by
    simp only [replay, List.foldl_map, Completion.absorb_corrupt]
  have hc : (before ++ c :: after)[before.length]? = some c := by
    rw [List.getElem?_append_right (Nat.le_refl _), Nat.sub_self]
    rfl
  rw [hreplay]
  cases ha : c.access with
  | write enables d =>
    rw [Completion.corrupt_write _ ha, ha] at hr
    cases hr
  | read d =>
    rw [Completion.corrupt_read _ ha] at hr ⊢
    have hread := read_eq_of_mismatches_nil h hc ha
    rw [List.take_left] at hread
    rw [← Access.read.inj hr, hread]

/-- What a port that is served truthfully has done follows from what it asked for. -/
theorem deeds_eq_of_truthful {port : Port} {requests : List Request}
    (hs : List.Forall₂ (Completion.Serves port) ledger requests)
    (hs' : List.Forall₂ (Completion.Serves port) ledger' requests) :
    ∀ before before' : List Completion,
      before.map Completion.deed = before'.map Completion.deed →
      Truthful map mask (before ++ ledger) → Truthful map mask (before' ++ ledger') →
      ledger.map Completion.deed = ledger'.map Completion.deed := by
  induction hs generalizing ledger' with
  | nil =>
    intro _ _ _ _ _
    cases hs'
    rfl
  | @cons c q ledger requests hc _ ih =>
    intro before before' hd ht ht'
    obtain ⟨c', rest, hc', hrest, rfl⟩ := List.forall₂_cons_right_iff.mp hs'
    obtain ⟨-, ha, hw⟩ := hc
    obtain ⟨-, ha', hw'⟩ := hc'
    have haddress : c.address = c'.address := ha.trans ha'.symm
    have haccess : c.access = c'.access := by
      split at hw
      · rename_i hq
        rw [if_pos hq] at hw'
        rw [hw, hw']
      · rename_i hq
        rw [if_neg hq] at hw'
        obtain ⟨data, hr⟩ := hw
        obtain ⟨data', hr'⟩ := hw'
        rw [hr, hr', ht _ _ _ data rfl hr, ht' _ _ _ data' rfl hr', haddress, replay_congr hd]
    have hdeed : c.deed = c'.deed := Prod.ext haddress haccess
    rw [List.map_cons, List.map_cons, hdeed]
    refine congrArg (c'.deed :: ·) (ih hrest (before ++ [c]) (before' ++ [c']) ?_ ?_ ?_)
    · rw [List.map_append, List.map_append, hd, List.map_singleton, List.map_singleton, hdeed]
    · rwa [List.append_assoc, List.singleton_append]
    · rwa [List.append_assoc, List.singleton_append]

end Shadow

/-! ### Scenarios -/

/-- The requests of a port, in order. -/
def Scenario.requests (s : Scenario) (port : Port) : List Request :=
  (s.sequences.get port).reduceOption

/-- Whatever word a port asks for, no other port writes. A port that cannot write does not. -/
def Scenario.Owned (s : Scenario) : Prop :=
  ∀ port, ∀ q ∈ s.requests port, ∀ other, ∀ w ∈ s.requests other,
    w.isWrite = true → other ≠ Port.one →
    AddressMap.standard.decode w.address = AddressMap.standard.decode q.address → other = port

theorem Completion.Serves.decode {port : Port} {c : Completion} {q : Request}
    (h : c.Serves port q) :
    AddressMap.standard.decode c.address = AddressMap.standard.decode q.address := by
  rw [h.2.1]
  exact AddressMap.decode_mask .standard q.address

/-- A write is one that was asked for on a port that can write. -/
theorem Completion.Serves.writes {port : Port} {c : Completion} {q : Request}
    (h : c.Serves port q) {enables : ByteEnables} {data : Word}
    (hc : c.access = .write enables data) : q.isWrite = true ∧ port ≠ Port.one := by
  obtain ⟨-, -, hw⟩ := h
  split at hw
  · assumption
  · obtain ⟨_, hr⟩ := hw
    rw [hc] at hr
    cases hr

theorem Completion.exists_serves {port : Port} {ledger : List Completion}
    {requests : List Request} (h : List.Forall₂ (Completion.Serves port) ledger requests)
    {c : Completion} (hc : c ∈ ledger) : ∃ q ∈ requests, c.Serves port q := by
  induction h with
  | nil => cases hc
  | cons hs _ ih =>
    rcases List.mem_cons.mp hc with rfl | hc
    · exact ⟨_, List.mem_cons_self, hs⟩
    · obtain ⟨q, hq, hs⟩ := ih hc
      exact ⟨q, List.mem_cons_of_mem _ hq, hs⟩

/-! ### Runs that have drained -/

/-- A ledger that answers all requests of a scenario, port by port. -/
structure Scenario.Served (s : Scenario) (mask : Word) (ledger : List Completion) : Prop where
  complete : ∀ port, List.Forall₂ (Completion.Serves port)
    (ledger.filter fun c => c.port = port) (s.requests port)
  truthful : Shadow.Truthful .standard mask ledger

namespace Scenario.Served

variable {s : Scenario} {mask : Word} {ledger ledger' : List Completion}

theorem exists_request (h : s.Served mask ledger) {c : Completion} (hc : c ∈ ledger) :
    ∃ q ∈ s.requests c.port, c.Serves c.port q :=
  Completion.exists_serves (h.complete c.port) (List.mem_filter.mpr ⟨hc, by simp⟩)

/-- A write to a word that a port has asked for comes from that port. -/
theorem port_of_writesTo (h : s.Served mask ledger) (ho : s.Owned) {port : Port} {q : Request}
    (hq : q ∈ s.requests port) {e : Completion} (he : e ∈ ledger)
    (hw : e.WritesTo .standard q.address) : e.port = port := by
  obtain ⟨w, hm, hs⟩ := h.exists_request he
  obtain ⟨⟨enables, data, hwrite⟩, hd⟩ := hw
  obtain ⟨hiswrite, hport⟩ := hs.writes hwrite
  exact ho port q hq e.port w hm hiswrite hport (hs.decode.symm.trans hd)

theorem deeds_eq (h : s.Served mask ledger) (h' : s.Served mask ledger') (ho : s.Owned)
    (port : Port) :
    (ledger.filter fun c => c.port = port).map Completion.deed =
      (ledger'.filter fun c => c.port = port).map Completion.deed := by
  have hown : ∀ {l : List Completion}, s.Served mask l →
      Shadow.Truthful .standard mask (l.filter fun c => c.port = port) := by
    intro l hl
    refine hl.truthful.filter _ fun c hc hp e he hw => ?_
    obtain ⟨q, hq, hs⟩ := hl.exists_request hc
    have hwq : e.WritesTo .standard q.address := ⟨hw.1, hw.2.trans hs.decode⟩
    rw [decide_eq_true_eq] at hp ⊢
    rw [hl.port_of_writesTo ho hq he hwq, hp]
  exact Shadow.deeds_eq_of_truthful (h.complete port) (h'.complete port) [] [] rfl (hown h)
    (hown h')

/-- Every word is written by one port at most. -/
theorem exists_owner (ho : s.Owned) (mask a : Word) :
    ∃ port, ∀ {l : List Completion}, s.Served mask l →
      ∀ e ∈ l, e.WritesTo .standard a → e.port = port := by
  by_cases hw : ∃ port, ∃ q ∈ s.requests port,
      AddressMap.standard.decode q.address = AddressMap.standard.decode a
  · obtain ⟨port, q, hq, hd⟩ := hw
    exact ⟨port, fun hl e he hwe => hl.port_of_writesTo ho hq he ⟨hwe.1, hwe.2.trans hd.symm⟩⟩
  · refine ⟨.one, fun hl e he hwe => absurd ?_ hw⟩
    obtain ⟨q, hq, hs⟩ := hl.exists_request he
    exact ⟨e.port, q, hq, hs.decode.symm.trans hwe.2⟩

theorem replay_eq (h : s.Served mask ledger) (h' : s.Served mask ledger') (ho : s.Owned) :
    Shadow.replay .standard ledger = Shadow.replay .standard ledger' := by
  refine Shadow.ext_expected (Shadow.map_replay _ _) (Shadow.map_replay _ _) fun a => ?_
  obtain ⟨port, hport⟩ := exists_owner ho mask a
  have hone : ∀ {l : List Completion}, s.Served mask l →
      (Shadow.replay .standard (l.filter fun c => c.port = port)).expected a =
        (Shadow.replay .standard l).expected a := fun hl =>
    Shadow.expected_replay_filter _ fun e he hw => by simpa using hport hl e he hw
  rw [← hone h, ← hone h', Shadow.replay_congr (h.deeds_eq h' ho port)]

end Scenario.Served

namespace Testbench

variable {b b' : Testbench Crossbar} {s : Scenario} {n : Nat}

theorem serving_unroll (hb : b.Reached) (s : Scenario) (n : Nat) :
    (b.unroll .standard s n).Serving s b :=
  unroll_induction (P := fun _ r => r.Serving s b) (.launch hb s) (fun n _ h => h.iterate (n + 1)) n

theorem agreeing_unroll (hb : b.Reached) (s : Scenario) (n : Nat) :
    (b.unroll .standard s n).Agreeing (n + 1) :=
  unroll_induction (P := fun n r => r.Agreeing (n + 1)) (.launch hb s) (fun _ _ h => h.iterate) n

/-- The ledger of a run is truthful up to what the crossbar flips in its answers. -/
theorem truthful_unroll (hb : b.Reached) (s : Scenario) (n : Nat) :
    Shadow.Truthful .standard b.device.corruption (b.unroll .standard s n).completions.toList := by
  let healthy := b.onDevice (·.withFaults 0 none)
  have hfits : ∀ c, (healthy.device.controllers.get c).Fits c := hb.device.fits
  have hclean := unaccused_unroll hfits rfl rfl s n
  rw [corrupt_unroll hfits hb.device.fits rfl]
  exact Shadow.truthful_corrupt hclean.mismatches_eq_nil _

/-- A run that has drained has served all requests. -/
theorem served_unroll (hb : b.Reached) (hd : (b.unroll .standard s n).allDrained = true) :
    s.Served b.device.corruption (b.unroll .standard s n).completions.toList where
  complete port := by
    have hs := serving_unroll hb s n
    obtain ⟨served, pending, hp⟩ := hs.progress port
    have hdrained := (Run.allDrained_iff _).mp hd port
    have hslots := (hs.inStep.drained port hdrained).2
    have hpending : pending = none := by
      have ha := hs.inStep.not_awaiting_of_drained hdrained
      rw [hp.awaiting] at ha
      simpa using ha
    have hall := hp.split
    rw [hslots, hpending] at hall
    rw [Scenario.requests, hall]
    simpa using hp.completed
  truthful := truthful_unroll hb s n

/-- Two scenarios with the same sequences, in which no port writes what another asks for, on two
benches that flip the same bits: whatever the delays, the limits and the states that the benches
are in, where both runs end every port has done the same and read the same, and the same words are
left. -/
theorem perform_independent_of_timing (hb : b.Reached) (hb' : b'.Reached)
    (hc : b.device.corruption = b'.device.corruption) {s s' : Scenario}
    (hs : s.sequences = s'.sequences) (ho : s.Owned) :
    ∃ report bench report' bench', b.perform s = .ok (report, bench) ∧
      b'.perform s' = .ok (report', bench') ∧
      (report.outcome = .done → report'.outcome = .done →
        (∀ port, (report.completionsOn port).map Completion.deed =
          (report'.completionsOn port).map Completion.deed) ∧
        report.shadow = report'.shadow ∧
        ∀ p o, bench.device.word p o = bench'.device.word p o) := by
  rcases perform_unroll b.addressWidth_crossbar s with ⟨n, -, hd, hp⟩ | ⟨-, hp⟩
  · rcases perform_unroll b'.addressWidth_crossbar s' with ⟨n', -, hd', hp'⟩ | ⟨-, hp'⟩
    · refine ⟨_, _, _, _, hp, hp', fun _ _ => ?_⟩
      have h := served_unroll hb hd.drained
      have h' : s.Served b.device.corruption (b'.unroll .standard s' n').completions.toList := by
        have hreq : s.requests = s'.requests := funext fun port => by
          rw [Scenario.requests, Scenario.requests, hs]
        obtain ⟨hall, htruth⟩ := served_unroll hb' hd'.drained
        exact ⟨hreq ▸ hall, hc ▸ htruth⟩
      have ha := agreeing_unroll hb s n
      have ha' := agreeing_unroll hb' s' n'
      have hshadow : (b.unroll .standard s n).shadow = (b'.unroll .standard s' n').shadow := by
        rw [ha.audited.replayed, ha'.audited.replayed, h.replay_eq h' ho]
      refine ⟨h.deeds_eq h' ho, hshadow, fun p o => ?_⟩
      have hword := Crossbar.word_eq (ha.words_of_allDrained hd.drained) p o
      have hword' := Crossbar.word_eq (ha'.words_of_allDrained hd'.drained) p o
      rw [hshadow] at hword
      exact hword.trans hword'.symm
    · exact ⟨_, _, _, _, hp, hp', by rintro - ⟨⟩⟩
  · obtain ⟨report', bench', hp'⟩ : ∃ report' bench', b'.perform s' = .ok (report', bench') := by
      rcases perform_unroll b'.addressWidth_crossbar s' with ⟨n', -, -, hp'⟩ | ⟨-, hp'⟩
      · exact ⟨_, _, hp'⟩
      · exact ⟨_, _, hp'⟩
    exact ⟨_, _, report', bench', hp, hp', by rintro ⟨⟩⟩

/-- Three ports contend for a peripheral, each for words of its own, on a new bench and on one with
other delays that has a request of its own raised. Both runs end. -/
theorem perform_independent_of_timing_of_contended :
    let b := new (Crossbar.initial.withCorruption 0xFF)
    let b' := (new (Crossbar.initial.withCorruption 0xFF)).after
      [.setRequest .two true, .toResponse, .device (.withSpuriousReady .three)]
    let s := { Scenario.blank "contended" with
      sequences := #v[[some (.write 0x8003 0xF 1), some (.read 0x8003)],
        [some (.write 0x8001 0xF 2), some (.read 0x8001)],
        [none, some (.write 0x8002 0x3 3), some (.read 0x8002)]] }
    let s' := { s with delays := #v[0, 0, 2, 0], limit := 40 }
    (b.Reached ∧ b'.Reached ∧ b.device.corruption = b'.device.corruption ∧
      s.sequences = s'.sequences ∧ s.Owned) ∧
    ((b.perform s).map fun r => r.1.outcome) = .ok .done ∧
    ((b'.perform s').map fun r => r.1.outcome) = .ok .done ∧
    ∃ report bench report' bench', b.perform s = .ok (report, bench) ∧
      b'.perform s' = .ok (report', bench') ∧
      (report.outcome = .done → report'.outcome = .done →
        (∀ port, (report.completionsOn port).map Completion.deed =
          (report'.completionsOn port).map Completion.deed) ∧
        report.shadow = report'.shadow ∧
        ∀ p o, bench.device.word p o = bench'.device.word p o) :=
  have hb := ⟨_, [], ⟨[.withCorruption 0xFF], rfl⟩, rfl⟩
  have hb' := ⟨_, _, ⟨[.withCorruption 0xFF], rfl⟩, rfl⟩
  have hc := by decide +kernel
  have ho := by
    unfold Scenario.Owned
    decide +kernel
  ⟨⟨hb, hb', hc, rfl, ho⟩, by decide +kernel, by decide +kernel,
    perform_independent_of_timing hb hb' hc rfl ho⟩

end Testbench

end CrossbarBench
