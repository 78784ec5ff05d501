import CrossbarBench.Proofs.Ledger.Ownership

/-! Addresses of one word. Memories and shadow memory decode an address before they use it, and
nothing else looks at it. So requests can be moved to other addresses of the words that they are
for: the run takes the same course and finds the same, and of each address shows what the bus
carries of it. -/

namespace CrossbarBench

/-! ### Requests -/

/-- The requests ask for the same to be done to the same word. -/
structure Request.Aliases (q q' : Request) : Prop where
  word : AddressMap.standard.decode q.address = AddressMap.standard.decode q'.address
  isWrite : q.isWrite = q'.isWrite
  enables : q.enables = q'.enables
  data : q.data = q'.data

/-- Slot by slot the scenarios are both idle or ask for the same. -/
structure Scenario.Readdressed (s s' : Scenario) : Prop where
  name : s.name = s'.name
  delays : s.delays = s'.delays
  limit : s.limit = s'.limit
  slots : ∀ port, List.Forall₂ (Option.Rel Request.Aliases)
    (s.sequences.get port) (s'.sequences.get port)

theorem Inputs.Carries.sameDemand {i j : Inputs} {port : Port} {q q' : Request} (h : q.Aliases q')
    (hi : i.Carries port q) (hj : j.Carries port q') (hr : i.request = j.request) :
    i.SameDemand j where
  request := hr
  target _ := by
    rw [target, target, hi.address, hj.address, AddressMap.decode_mask, AddressMap.decode_mask,
      h.word]
  writeEnable _ := by rw [hi.writeEnable, hj.writeEnable, h.isWrite]
  written _ hw := by
    obtain ⟨he', hd'⟩ := hj.written hw
    obtain ⟨he, hd⟩ := hi.written (by rw [hi.writeEnable, h.isWrite, ← hj.writeEnable, hw])
    exact ⟨by rw [he, he', h.enables], by rw [hd, hd', h.data]⟩

namespace Requester

/-- The requesters have come as far in sequences that ask for the same. -/
structure SameProgress (q q' : Requester) : Prop where
  slots : List.Forall₂ (Option.Rel Request.Aliases) q.slots q'.slots
  awaiting : q.awaiting = q'.awaiting
  drained : q.drained = q'.drained

variable {q q' : Requester} {port : Port} {i j : Inputs}

/-- Fed alike, they raise and take alike. -/
theorem SameProgress.feed (h : q.SameProgress q') :
    q.next.SameProgress q'.next ∧ Option.Rel Request.Aliases q.raised? q'.raised? := by
  obtain ⟨slots, awaiting, drained⟩ := q
  obtain ⟨slots', awaiting', drained'⟩ := q'
  obtain ⟨hs, ha, hd⟩ := h
  dsimp only at hs ha hd
  subst ha hd
  cases awaiting with
  | true => exact ⟨⟨hs, rfl, rfl⟩, .none⟩
  | false =>
    cases hs with
    | nil => exact ⟨⟨.nil, rfl, rfl⟩, .none⟩
    | cons hslot hrest =>
      cases hslot with
      | none => exact ⟨⟨hrest, rfl, rfl⟩, .none⟩
      | some hq => exact ⟨⟨hrest, rfl, rfl⟩, .some hq⟩

/-- What is left in the registers of a port does not show once it is fed. -/
theorem SameProgress.load (h : q.SameProgress q') (hij : i.SameDemand j) (hi : i.Fits port)
    (hj : j.Fits port) : (q.load port i).SameDemand (q'.load port j) := by
  have hraised := h.feed.2
  cases ha : q.awaiting with
  | true => rwa [load_awaiting ha, load_awaiting (h.awaiting ▸ ha)]
  | false =>
    have ha' : q'.awaiting = false := h.awaiting ▸ ha
    cases hr : q.raised? with
    | none =>
      cases hr' : q'.raised? with
      | none =>
        rw [load_idle ha hr, load_idle ha' hr']
        exact (Inputs.SameShown.of_idle rfl rfl).sameDemand
      | some request' =>
        rw [hr, hr'] at hraised
        cases hraised
    | some request =>
      cases hr' : q'.raised? with
      | none =>
        rw [hr, hr'] at hraised
        cases hraised
      | some request' =>
        rw [hr, hr'] at hraised
        obtain ⟨hq⟩ := hraised
        rw [load_raised hr, load_raised hr']
        exact (hi.carries_load request).sameDemand hq (hj.carries_load request') rfl

end Requester

/-! ### Reports without addresses -/

namespace FailureKind

/-- The finding without the address that it tells of. -/
def unaddressed : FailureKind → FailureKind
  | .dataMismatch _ expected observed => .dataMismatch 0 expected observed
  | kind => kind

end FailureKind

/-- The failure without the address that it tells of. -/
def Failure.unaddressed (f : Failure) : Failure := { f with kind := f.kind.unaddressed }

/-- The completion without its address. -/
def Completion.unaddressed (c : Completion) : Completion := { c with address := 0 }

/-- The report without the addresses in it. -/
def Report.unaddressed (r : Report) : Report :=
  { r with
    failures := r.failures.map Failure.unaddressed
    completions := r.completions.map Completion.unaddressed }

namespace Completion

/-- The completions differ only in which address of the word they show. -/
structure SameButAddress (c c' : Completion) : Prop where
  iteration : c.iteration = c'.iteration
  port : c.port = c'.port
  word : AddressMap.standard.decode c.address = AddressMap.standard.decode c'.address
  access : c.access = c'.access

theorem SameButAddress.unaddressed_eq {c c' : Completion} (h : c.SameButAddress c') :
    c.unaddressed = c'.unaddressed := by
  rw [unaddressed, unaddressed, h.iteration, h.port, h.access]

theorem map_unaddressed {ledger ledger' : List Completion}
    (h : List.Forall₂ SameButAddress ledger ledger') :
    ledger.map unaddressed = ledger'.map unaddressed := by
  induction h with
  | nil => rfl
  | cons hc _ ih => rw [List.map_cons, List.map_cons, hc.unaddressed_eq, ih]

end Completion

namespace Shadow

variable {s : Shadow} {c c' : Completion} {ledger ledger' : List Completion}

theorem write_congr {a a' : Word} (h : s.map.decode a = s.map.decode a') (enables : ByteEnables)
    (data : Word) : s.write a enables data = s.write a' enables data := by
  obtain ⟨hp, ho⟩ := Prod.mk.inj h
  rw [write, write, hp, ho]

theorem absorb_readdressed (hs : s.map = .standard) (h : c.SameButAddress c') :
    s.absorb c = s.absorb c' := by
  rw [absorb, absorb, h.access]
  split
  · rfl
  · rw [write_congr (hs ▸ h.word)]

theorem objection?_readdressed (hs : s.map = .standard) (h : c.SameButAddress c') :
    (s.objection? c).map FailureKind.unaddressed =
      (s.objection? c').map FailureKind.unaddressed := by
  rw [objection?, objection?, h.access]
  split
  · rw [expected_congr (hs ▸ h.word)]
    split <;> rfl
  · rfl

theorem foldl_absorb_readdressed (hs : s.map = .standard)
    (h : List.Forall₂ Completion.SameButAddress ledger ledger') :
    ledger.foldl absorb s = ledger'.foldl absorb s := by
  induction h generalizing s with
  | nil => rfl
  | cons hc _ ih =>
    rw [List.foldl_cons, List.foldl_cons, absorb_readdressed hs hc,
      ih ((map_absorb s _).trans hs)]

theorem objections_readdressed (hs : s.map = .standard) (time : Nat)
    (h : List.Forall₂ Completion.SameButAddress ledger ledger') :
    ((s.objections ledger).map (Failure.ofObjection time)).map Failure.unaddressed =
      ((s.objections ledger').map (Failure.ofObjection time)).map Failure.unaddressed := by
  induction h generalizing s with
  | nil => rfl
  | @cons c c' _ _ hc _ ih =>
    -- the entry is judged before it is absorbed, and both by the same shadow memory
    have hone : ∀ c, (((s.objection? c).map fun kind => (c, kind)).toList.map
        (Failure.ofObjection time)).map Failure.unaddressed =
      ((s.objection? c).map FailureKind.unaddressed).toList.map fun kind =>
        (⟨kind, time, c.iteration, some c.port⟩ : Failure) := fun c => by
      cases s.objection? c <;> rfl
    rw [objections, objections, List.map_append, List.map_append, List.map_append,
      List.map_append, hone, hone, objection?_readdressed hs hc, hc.iteration, hc.port,
      absorb_readdressed hs hc,
      ih ((map_absorb s _).trans hs)]

end Shadow

/-! ### Crossbars -/

namespace Crossbar

variable {x y : Crossbar}

/-- The answers to one request at two addresses of its word. -/
theorem SameCourse.completion_answer (h : x.SameCourse y) (hc : x.corruption = y.corruption)
    {c : Port} (ha : y.answered c = true) (k : Nat) :
    ((x.answer c).completion k c).SameButAddress ((y.answer c).completion k c) := by
  have hr := ((answered_iff y c).mp ha).1
  have htarget := (h.controllers c).target hr
  have hwrite := (h.controllers c).writeEnable hr
  refine ⟨rfl, rfl, htarget, ?_⟩
  cases hw : (y.controllers.get c).writeEnable with
  | true =>
    obtain ⟨he, hd⟩ := (h.controllers c).written hr hw
    simp only [Handshake.completion, answer, hwrite, hw, ↓reduceIte, he, hd]
  | false =>
    have hdata : x.readWord c = y.readWord c := by
      rw [readWord, readWord, (h.answered c).trans ha, ha, if_pos rfl, if_pos rfl, htarget,
        h.memories, hc]
    simp only [Handshake.completion, answer, hwrite, hw,
      Bool.false_eq_true, ↓reduceIte, hdata]

end Crossbar

/-! ### Runs -/

namespace Run

variable {r r' : Run Crossbar}

/-- The runs have done and found the same, but for the addresses. -/
structure SameButAddresses (r r' : Run Crossbar) : Prop where
  landed : r.Landed
  landed' : r'.Landed
  device : r.bench.device.SameCourse r'.bench.device
  clock : r.bench.device.clock = r'.bench.device.clock
  corruption : r.bench.device.corruption = r'.bench.device.corruption
  spurious : r.bench.device.spurious = r'.bench.device.spurious
  time : r.bench.time = r'.bench.time
  requesters : ∀ c, (r.requesters.get c).SameProgress (r'.requesters.get c)
  map : r.shadow.map = .standard
  shadow : r.shadow = r'.shadow
  completions : r.completions.toList.map Completion.unaddressed =
    r'.completions.toList.map Completion.unaddressed
  failures : r.failures.toList.map Failure.unaddressed =
    r'.failures.toList.map Failure.unaddressed

namespace SameButAddresses

theorem launch {b : Testbench Crossbar} (hb : ∀ c, (b.device.controllers.get c).Fits c)
    {s s' : Scenario} (h : s.Readdressed s') :
    SameButAddresses (b.launch .standard s) (b.launch .standard s') := by
  have hbench : (b.launch .standard s).bench = (b.launch .standard s').bench := by
    rw [Testbench.bench_launch, Testbench.bench_launch, h.delays]
  obtain ⟨hf, -, -, -⟩ := Testbench.fresh_prepare b s'.delays
  constructor
  case landed => exact (InStep.launch hb .standard s).landed
  case landed' => exact (InStep.launch hb .standard s').landed
  case device =>
    rw [hbench, Testbench.bench_launch]
    exact ⟨fun c => (Inputs.SameShown.of_idle (hf.idle c) (hf.idle c)).sameDemand, rfl⟩
  case clock => rw [hbench]
  case corruption => rw [hbench]
  case spurious => rw [hbench]
  case time => rw [hbench]
  case requesters =>
    intro c
    rw [Testbench.get_requesters_launch, Testbench.get_requesters_launch]
    exact ⟨h.slots c, rfl, rfl⟩
  case map => rw [Testbench.shadow_launch, Shadow.fresh]
  case shadow => rw [Testbench.shadow_launch, Testbench.shadow_launch]
  case completions => rw [Testbench.completions_launch, Testbench.completions_launch]
  case failures => rw [Testbench.failures_launch, Testbench.failures_launch]

theorem origin (h : SameButAddresses r r') : r.bench.origin = r'.bench.origin := by
  rw [Testbench.origin, Testbench.origin, Crossbar.device_clock, Crossbar.device_clock, h.clock,
    h.time]

theorem device_iterate (h : SameButAddresses r r') (k : Nat) :
    (r.iterate k).bench.device.SameCourse (r'.iterate k).bench.device where
  controllers c := by
    rw [controllers_iterate, controllers_iterate]
    exact (h.requesters c).load (h.device.controllers c) (h.landed.fits c) (h.landed'.fits c)
  memories := by
    rw [h.landed.memories_iterate, h.landed'.memories_iterate]
    exact h.device.memories_edge (h.landed.resetLevel.trans h.landed'.resetLevel.symm)

theorem entries_iterate (h : SameButAddresses r r') (k : Nat) :
    List.Forall₂ Completion.SameButAddress (Device.entries r.stimulate.bench.toResponse.device k)
      (Device.entries r'.stimulate.bench.toResponse.device k) := by
  have hd := h.device_iterate k
  have hc : (r.iterate k).bench.device.corruption = (r'.iterate k).bench.device.corruption := by
    rw [corruption_iterate, corruption_iterate, h.corruption]
  rw [h.landed.entries_iterate, h.landed'.entries_iterate, funext hd.answered,
    List.forall₂_map_left_iff, List.forall₂_map_right_iff, List.forall₂_same]
  intro c hmem
  exact hd.completion_answer hc (List.mem_filter.mp hmem).2 k

theorem violations_iterate (h : SameButAddresses r r') (k : Nat) :
    violations r.stimulate.bench.toResponse.device r.stimulate.bench.toResponse.time k Port.all =
      violations r'.stimulate.bench.toResponse.device r'.stimulate.bench.toResponse.time k
        Port.all := by
  rw [violations, violations, readyUnasked_congr (h.device_iterate k) h.spurious,
    time_toResponse_stimulate, time_toResponse_stimulate, h.origin]

/-- An iteration does and finds in both runs the same. -/
theorem iterate (h : SameButAddresses r r') (k : Nat) :
    SameButAddresses (r.iterate k) (r'.iterate k) where
  landed := h.landed.iterate k
  landed' := h.landed'.iterate k
  device := h.device_iterate k
  clock := by
    rw [Run.device_iterate, Run.device_iterate, Testbench.clock_toResponse,
      Testbench.clock_toResponse]
  corruption := by rw [corruption_iterate, corruption_iterate, h.corruption]
  spurious := by rw [spurious_iterate, spurious_iterate, h.spurious]
  time := by rw [time_iterate, time_iterate, h.origin]
  requesters c := by
    obtain ⟨hs, ha, hd⟩ := (h.requesters c).feed.1
    rw [h.landed.requesters_iterate, h.landed'.requesters_iterate,
      (h.device_iterate k).answered]
    exact ⟨hs, congrArg (· && _) ha, hd⟩
  map := by
    rw [shadow_iterate, Shadow.map_foldl_absorb, h.map]
  shadow := by
    rw [shadow_iterate, shadow_iterate, Shadow.foldl_absorb_readdressed h.map (h.entries_iterate k),
      h.shadow]
  completions := by
    rw [completions_iterate, completions_iterate, List.map_append, List.map_append, h.completions,
      Completion.map_unaddressed (h.entries_iterate k)]
  failures := by
    rw [failures_iterate, failures_iterate, List.map_append, List.map_append, List.map_append,
      List.map_append, h.failures, h.violations_iterate,
      Shadow.objections_readdressed h.map _ (h.entries_iterate k), h.shadow,
      time_toResponse_stimulate, time_toResponse_stimulate, h.origin]

theorem unroll {b : Testbench Crossbar} (hb : ∀ c, (b.device.controllers.get c).Fits c)
    {s s' : Scenario} (h : s.Readdressed s') (n : Nat) :
    SameButAddresses (b.unroll .standard s n) (b.unroll .standard s' n) := by
  induction n with
  | zero => exact .launch hb h
  | succ n ih => exact ih.iterate (n + 1)

theorem allDrained (h : SameButAddresses r r') : r.allDrained = r'.allDrained := by
  rw [Bool.eq_iff_iff, allDrained_iff, allDrained_iff]
  exact forall_congr' fun c => by rw [(h.requesters c).drained]

/-- The limit cuts both runs off alike. -/
theorem timeOut (h : SameButAddresses r r') (limit iteration : Nat) :
    SameButAddresses (r.timeOut limit iteration) (r'.timeOut limit iteration) where
  landed := h.landed.timeOut limit iteration
  landed' := h.landed'.timeOut limit iteration
  device := h.device
  clock := h.clock
  corruption := h.corruption
  spurious := h.spurious
  time := h.time
  requesters := h.requesters
  map := h.map
  shadow := h.shadow
  completions := h.completions
  failures := by
    simp only [Run.timeOut, fail, Array.toList_push, List.map_append, h.failures, h.time]

theorem report (h : SameButAddresses r r') (name : String) (outcome : Outcome) (iterations : Nat) :
    (r.report name outcome iterations).unaddressed =
      (r'.report name outcome iterations).unaddressed := by
  simp only [Run.report, Report.unaddressed, h.failures, h.completions, h.shadow]

end SameButAddresses

end Run

/-! ### The addresses in a report -/

theorem Completion.map_address {port : Port} {ledger : List Completion} {requests : List Request}
    (h : List.Forall₂ (Completion.Serves port) ledger requests) :
    ledger.map Completion.address = requests.map fun q => Word.truncate 16 q.address := by
  induction h with
  | nil => rfl
  | cons hc _ ih => rw [List.map_cons, List.map_cons, hc.2.1, ih]

/-- The completions on a port show the addresses of its requests in order, cut to the bus, and a
mismatch the one of the read that it was found in. -/
structure Report.ShowsAddressesOf (s : Scenario) (r : Report) : Prop where
  completions : ∀ port, (r.completionsOn port).map Completion.address <+:
    (s.requests port).map fun q => Word.truncate 16 q.address
  mismatches : ∀ f ∈ r.failures, ∀ address expected observed,
    f.kind = .dataMismatch address expected observed →
      ∃ c ∈ r.completions, c.iteration = f.iteration ∧ f.port = some c.port ∧
        c.address = address ∧ c.access = .read observed

namespace Run

variable {r : Run Crossbar} {k : Nat} {s : Scenario}

theorem Audited.exists_read {map : AddressMap} (h : r.Audited map k) {f : Failure}
    (hf : f ∈ r.failures.toList) {address expected observed : Word}
    (hk : f.kind = .dataMismatch address expected observed) :
    ∃ c ∈ r.completions.toList, c.iteration = f.iteration ∧ f.port = some c.port ∧
      c.address = address ∧ c.access = .read observed := by
  have hmem : f.finding ∈ Shadow.mismatches map r.completions.toList := by
    rw [← h.judged]
    refine List.mem_map_of_mem (List.mem_filter.mpr ⟨hf, ?_⟩)
    rw [Failure.isDataMismatch, hk]
  rw [Shadow.mismatches_eq_objections] at hmem
  obtain ⟨o, ho, hfind⟩ := List.mem_map.mp hmem
  obtain ⟨hc, data, _, hread, hmis⟩ := Shadow.read_of_mem_objections ho
  obtain ⟨hiteration, hport, hkind⟩ : o.1.iteration = f.iteration ∧ some o.1.port = f.port ∧
      o.2 = f.kind := by
    simpa [Failure.finding] using hfind
  rw [hk, hmis] at hkind
  obtain ⟨haddress, -, hdata⟩ := FailureKind.dataMismatch.inj hkind
  exact ⟨o.1, hc, hiteration, hport.symm, haddress, hdata ▸ hread⟩

theorem Serving.showsAddressesOf {b : Testbench Crossbar} (h : r.Serving s b)
    (ha : r.Audited .standard k) (name : String) (outcome : Outcome) (iterations : Nat) :
    (r.report name outcome iterations).ShowsAddressesOf s where
  completions port := by
    obtain ⟨served, pending, hp⟩ := h.progress port
    have hshown : ((r.report name outcome iterations).completionsOn port).map Completion.address =
        served.map fun q => Word.truncate 16 q.address := Completion.map_address hp.completed
    have hrequests : s.requests port = served ++ pending.toList ++ _ := hp.split
    rw [hshown, hrequests, List.append_assoc, List.map_append]
    exact List.prefix_append ..
  mismatches _ hf _ _ _ hk := ha.exists_read hf hk

/-- The failure that tells of the limit shows no address. -/
theorem showsAddressesOf_timeOut {name : String} {outcome : Outcome} {iterations : Nat}
    (h : (r.report name outcome iterations).ShowsAddressesOf s) (limit iteration : Nat) :
    ((r.timeOut limit iteration).report name outcome iterations).ShowsAddressesOf s where
  completions := h.completions
  mismatches f hf address expected observed hk := by
    rw [Run.report, Run.timeOut, fail, Array.toList_push, List.mem_append,
      List.mem_singleton] at hf
    rcases hf with hf | rfl
    · exact h.mismatches f hf address expected observed hk
    · cases hk

end Run

namespace Testbench

variable {b : Testbench Crossbar} {s s' : Scenario}

theorem showsAddressesOf_unroll (hb : b.Reached) (s : Scenario) (n : Nat) (outcome : Outcome)
    (iterations : Nat) :
    ((b.unroll .standard s n).report s.name outcome iterations).ShowsAddressesOf s :=
  (serving_unroll hb s n).showsAddressesOf (audited_unroll b .standard s n) _ _ _

/-- Two scenarios that ask in every slot for the same, at whatever addresses of the words, make one
run: the same failures at the same times, the same completions in the same iterations, and the same
words in the crossbar and in the shadow memory. The reports differ at most in addresses, and each
shows those that its own scenario asks for, cut to the bus. -/
theorem perform_blind_to_aliases (hb : b.Reached) (h : s.Readdressed s') :
    ∃ report bench report' bench', b.perform s = .ok (report, bench) ∧
      b.perform s' = .ok (report', bench') ∧
      report.unaddressed = report'.unaddressed ∧
      report.ShowsAddressesOf s ∧ report'.ShowsAddressesOf s' ∧
      ∀ p o, bench.device.word p o = bench'.device.word p o := by
  have hrun := Run.SameButAddresses.unroll hb.device.fits h
  have hshows := showsAddressesOf_unroll hb s
  have hshows' := showsAddressesOf_unroll hb s'
  rcases perform_lockstep b.addressWidth_crossbar b.addressWidth_crossbar h.limit
    fun n => (hrun n).allDrained with ⟨n, hp, hp'⟩ | ⟨hp, hp'⟩
  · refine ⟨_, _, _, _, hp, hp', ?_, hshows n _ _, hshows' n _ _,
      Crossbar.word_congr (hrun n).device.memories⟩
    rw [← h.name]
    exact (hrun n).report _ _ _
  · have hcut := (hrun (s.limit - 1)).timeOut s.limit (max 1 s.limit)
    refine ⟨_, _, _, _, hp, hp', ?_, Run.showsAddressesOf_timeOut (hshows _ _ _) _ _,
      Run.showsAddressesOf_timeOut (hshows' _ _ _) _ _, ?_⟩
    · rw [← h.name, ← h.limit]
      exact hcut.report _ _ _
    · rw [← h.limit]
      exact Crossbar.word_congr hcut.device.memories

/-- Three ports contend for a word of a crossbar that flips bits, on a bench with a request of its
own raised. Other addresses of the word differ within its peripheral and above the bus. -/
theorem perform_blind_to_aliases_of_contended :
    let b := (new (Crossbar.initial.withCorruption 0xFF)).after [.setRequest .two true, .toResponse]
    let s := { Scenario.blank "contended" with
      sequences := #v[[some (.read 0x8001)], [some (.write 0x8001 0x3 7)],
        [none, some (.read 0x8001)]] }
    let s' := { s with
      sequences := #v[[some (.read 0xABCDBFFD)], [some (.write 0x18005 0x3 7)],
        [none, some (.read 0x8001)]] }
    (b.Reached ∧ s.Readdressed s') ∧
    ((b.perform s).map fun r => r.1.completions.map Completion.address) =
      .ok [0x8001, 0x8001, 0x8001] ∧
    ((b.perform s').map fun r => r.1.completions.map Completion.address) =
      .ok [0xBFFD, 0x8005, 0x8001] ∧
    ∃ report bench report' bench', b.perform s = .ok (report, bench) ∧
      b.perform s' = .ok (report', bench') ∧
      report.unaddressed = report'.unaddressed ∧
      report.ShowsAddressesOf s ∧ report'.ShowsAddressesOf s' ∧
      ∀ p o, bench.device.word p o = bench'.device.word p o := by
  intro b s s'
  have hb : b.Reached := ⟨_, _, ⟨[.withCorruption 0xFF], rfl⟩, rfl⟩
  have hs : s.Readdressed s' := by
    refine ⟨rfl, rfl, rfl, fun port => ?_⟩
    have hread : (Request.read 0x8001).Aliases (.read 0xABCDBFFD) := ⟨by decide, rfl, rfl, rfl⟩
    have hwrite : (Request.write 0x8001 0x3 7).Aliases (.write 0x18005 0x3 7) :=
      ⟨by decide, rfl, rfl, rfl⟩
    rcases Port.eq_one_or_two_or_three port with rfl | rfl | rfl
    · exact .cons (.some hread) .nil
    · exact .cons (.some hwrite) .nil
    · exact .cons .none (.cons (.some ⟨rfl, rfl, rfl, rfl⟩) .nil)
  exact ⟨⟨hb, hs⟩, by decide +kernel, by decide +kernel, perform_blind_to_aliases hb hs⟩

end Testbench

end CrossbarBench
