import CrossbarBench.Check.Run
import CrossbarBench.Proofs.Ledger.Replay

/-! The response phase, whatever the device answers. Once it has landed it changes nothing
about the device, so all that it enters into the ledger is seen at one moment: the entries
are those of the ports that show a handshake, in port order, each absorbed by the shadow
memory and objected to by it before the next. -/

namespace CrossbarBench

namespace Handshake

/-- The entry of the ledger that a handshake makes. -/
def completion (h : Handshake) (iteration : Nat) (port : Port) : Completion :=
  ⟨iteration, port, h.address, if h.isWrite then .write h.enables h.writeData else .read h.readData⟩

end Handshake

namespace Device

variable {σ : Type} [Device σ]

/-- The entry of the ledger that a port makes, if it shows a handshake. -/
def completed? (d : σ) (iteration : Nat) (port : Port) : Option Completion :=
  (handshake? d port).map (·.completion iteration port)

/-- The entries that a response phase makes. -/
def entries (d : σ) (iteration : Nat) : List Completion :=
  Port.all.filterMap (completed? d iteration)

end Device

namespace Failure

/-- Ready without a request on a port. -/
def violation (time iteration : Nat) (port : Port) : Failure :=
  ⟨.protocolViolation, time, iteration, some port⟩

/-- What a completion is objected to for. -/
def ofObjection (time : Nat) (o : Completion × FailureKind) : Failure :=
  ⟨o.2, time, o.1.iteration, some o.1.port⟩

end Failure

namespace Run

variable {σ : Type}

/-- The run `r'` is the run `r` after the given entries have been made at one time, but for
its bench and its requesters. -/
structure Enters (r r' : Run σ) (time : Nat) (entries : List Completion) : Prop where
  shadow : r'.shadow = entries.foldl Shadow.absorb r.shadow
  completions : r'.completions.toList = r.completions.toList ++ entries
  failures : r'.failures.toList =
    r.failures.toList ++ (r.shadow.objections entries).map (Failure.ofObjection time)

namespace Enters

variable {r r' r'' : Run σ} {time : Nat}

theorem refl (r : Run σ) (time : Nat) : r.Enters r time [] :=
  ⟨rfl, (List.append_nil _).symm, (List.append_nil _).symm⟩

theorem trans {entries more : List Completion} (h : r.Enters r' time entries)
    (h' : r'.Enters r'' time more) : r.Enters r'' time (entries ++ more) where
  shadow := by rw [h'.shadow, h.shadow, List.foldl_append]
  completions := by rw [h'.completions, h.completions, List.append_assoc]
  failures := by
    rw [h'.failures, h.failures, h.shadow, Shadow.objections_append, List.map_append,
      List.append_assoc]

theorem retire (r : Run σ) (iteration : Nat) (port : Port) (h : Handshake) :
    r.Enters (r.retire iteration port h) r.bench.time [h.completion iteration port] := by
  unfold Run.retire Handshake.completion
  cases h.isWrite
  · simp only [Bool.false_eq_true, ↓reduceIte]
    by_cases hr : h.readData = r.shadow.expected h.address
    · constructor <;>
        simp [complete, withRequester, Shadow.absorb, Shadow.objections, Shadow.objection?, hr]
    · constructor <;>
        simp [complete, withRequester, fail, Shadow.absorb, Shadow.objections, Shadow.objection?,
          Failure.ofObjection, hr]
  · constructor <;>
      simp [complete, withRequester, Shadow.absorb, Shadow.objections, Shadow.objection?]

end Enters

/-! ### Port by port -/

/-- What only adds to the log of the bench for one port does so for many. -/
theorem bench_foldl {f : Run σ → Port → Run σ}
    (hf : ∀ r port, (f r port).bench = { r.bench with records := (f r port).bench.records })
    (ports : List Port) (r : Run σ) :
    (ports.foldl f r).bench = { r.bench with records := (ports.foldl f r).bench.records } := by
  induction ports generalizing r with
  | nil => rfl
  | cons port ports ih => rw [List.foldl_cons, ih, hf]

/-- Retiring only adds to the log of the bench. -/
theorem bench_retire (r : Run σ) (iteration : Nat) (port : Port) (h : Handshake) :
    (r.retire iteration port h).bench =
      { r.bench with records := (r.retire iteration port h).bench.records } := by
  unfold retire
  cases h.isWrite
  · simp only [Bool.false_eq_true, ↓reduceIte]
    split <;> rfl
  · rfl

theorem requesters_retire (r : Run σ) (iteration : Nat) (port : Port) (h : Handshake) :
    (r.retire iteration port h).requesters =
      r.requesters.modify port ({ · with awaiting := false }) := by
  unfold retire
  cases h.isWrite
  · simp only [Bool.false_eq_true, ↓reduceIte]
    split <;> rfl
  · rfl

section Device
variable [Device σ]

theorem enters_collect (iteration : Nat) (r : Run σ) (port : Port) :
    r.Enters (collect iteration r port) r.bench.time
      (Device.completed? r.bench.device iteration port).toList := by
  unfold collect Device.completed?
  cases Device.handshake? r.bench.device port with
  | none => exact .refl r _
  | some shake => exact .retire r iteration port shake

theorem bench_collect (iteration : Nat) (r : Run σ) (port : Port) :
    (collect iteration r port).bench =
      { r.bench with records := (collect iteration r port).bench.records } := by
  unfold collect
  split
  · rfl
  · exact bench_retire r iteration port _

theorem bench_foldl_collect (iteration : Nat) (ports : List Port) (r : Run σ) :
    (ports.foldl (collect iteration) r).bench =
      { r.bench with records := (ports.foldl (collect iteration) r).bench.records } :=
  bench_foldl (bench_collect iteration) ports r

theorem enters_foldl_collect (iteration : Nat) (ports : List Port) (r : Run σ) :
    r.Enters (ports.foldl (collect iteration) r) r.bench.time
      (ports.filterMap (Device.completed? r.bench.device iteration)) := by
  induction ports generalizing r with
  | nil => exact .refl r _
  | cons port ports ih =>
    have h := ih (collect iteration r port)
    rw [bench_collect] at h
    have hc := (enters_collect iteration r port).trans h
    rw [List.filterMap_cons]
    cases he : Device.completed? r.bench.device iteration port with
    | none => simpa [he] using hc
    | some c => simpa [he] using hc

theorem device_collect (iteration : Nat) (r : Run σ) (port : Port) :
    (collect iteration r port).bench.device = r.bench.device := by
  rw [bench_collect]

theorem get_requesters_collect (iteration : Nat) (r : Run σ) (port c : Port) :
    (collect iteration r port).requesters.get c =
      if port = c ∧ (Device.handshake? r.bench.device c).isSome then
        { r.requesters.get c with awaiting := false }
      else r.requesters.get c := by
  unfold collect
  by_cases hp : port = c
  · subst hp
    cases hs : Device.handshake? r.bench.device port with
    | none => simp
    | some shake => simp [requesters_retire, Table.get_modify]
  · cases Device.handshake? r.bench.device port with
    | none => simp [hp]
    | some shake => simp [requesters_retire, Table.get_modify, hp]

/-- A port that shows a handshake awaits nothing once it has been served, however often. -/
theorem get_requesters_foldl_collect (iteration : Nat) {ports : List Port} {c : Port}
    (hc : c ∈ ports) (r : Run σ) :
    (ports.foldl (collect iteration) r).requesters.get c =
      if (Device.handshake? r.bench.device c).isSome then
        { r.requesters.get c with awaiting := false }
      else r.requesters.get c := by
  induction ports generalizing r with
  | nil => cases hc
  | cons port ports ih =>
    rw [List.foldl_cons]
    by_cases hm : c ∈ ports
    · rw [ih hm, device_collect, get_requesters_collect]
      by_cases hp : port = c
      · cases Device.handshake? r.bench.device c <;> simp [hp]
      · simp [hp]
    · obtain rfl : c = port := (List.mem_cons.mp hc).resolve_right hm
      have hlater : ∀ (ports : List Port) (r : Run σ), c ∉ ports →
          (ports.foldl (collect iteration) r).requesters.get c = r.requesters.get c := by
        intro ports
        induction ports with
        | nil => exact fun _ _ => rfl
        | cons port ports ih =>
          intro r hn
          obtain ⟨hne, hn⟩ := not_or.mp (mt List.mem_cons.mpr hn)
          rw [List.foldl_cons, ih _ hn, get_requesters_collect,
            if_neg fun h => hne h.1.symm]
      rw [hlater ports _ hm, get_requesters_collect]
      simp

theorem bench_checkIdle (iteration : Nat) (r : Run σ) (port : Port) :
    (checkIdle iteration r port).bench =
      { r.bench with records := (checkIdle iteration r port).bench.records } := by
  unfold checkIdle
  split <;> rfl

theorem bench_foldl_checkIdle (iteration : Nat) (ports : List Port) (r : Run σ) :
    (ports.foldl (checkIdle iteration) r).bench =
      { r.bench with records := (ports.foldl (checkIdle iteration) r).bench.records } :=
  bench_foldl (bench_checkIdle iteration) ports r

theorem checkIdle_frame (iteration : Nat) (r : Run σ) (port : Port) :
    checkIdle iteration r port =
      { r with
        bench := (checkIdle iteration r port).bench
        failures := (checkIdle iteration r port).failures } := by
  unfold checkIdle
  split <;> rfl

theorem foldl_checkIdle_frame (iteration : Nat) (ports : List Port) (r : Run σ) :
    ports.foldl (checkIdle iteration) r =
      { r with
        bench := (ports.foldl (checkIdle iteration) r).bench
        failures := (ports.foldl (checkIdle iteration) r).failures } := by
  induction ports generalizing r with
  | nil => rfl
  | cons port ports ih => rw [List.foldl_cons, ih, checkIdle_frame]

/-- The violations that the ports of a device commit. -/
def violations (d : σ) (time iteration : Nat) (ports : List Port) : List Failure :=
  (ports.filter (Device.readyUnasked d)).map (Failure.violation time iteration)

theorem failures_foldl_checkIdle (iteration : Nat) (ports : List Port) (r : Run σ) :
    (ports.foldl (checkIdle iteration) r).failures.toList =
      r.failures.toList ++ violations r.bench.device r.bench.time iteration ports := by
  induction ports generalizing r with
  | nil => exact (List.append_nil _).symm
  | cons port ports ih =>
    have hc : (checkIdle iteration r port).failures.toList =
        r.failures.toList ++ violations r.bench.device r.bench.time iteration [port] := by
      unfold checkIdle violations
      cases h : Device.readyUnasked r.bench.device port <;> simp [h, fail, Failure.violation]
    rw [List.foldl_cons, ih, bench_checkIdle, hc, List.append_assoc]
    congr 1
    unfold violations
    rw [← List.map_append, ← List.filter_append, List.singleton_append]

/-! ### The whole phase -/

/-- The response phase with the ports served in any order. -/
def respondIn (ports : List Port) (iteration : Nat) (r : Run σ) : Run σ :=
  ports.foldl (collect iteration)
    (ports.foldl (checkIdle iteration) (r.withBench Testbench.toResponse))

section AnyOrder
variable (ports : List Port) (iteration : Nat) (r : Run σ)

theorem bench_respondIn :
    (r.respondIn ports iteration).bench =
      { r.bench.toResponse with records := (r.respondIn ports iteration).bench.records } := by
  rw [respondIn, bench_foldl_collect, bench_foldl_checkIdle]
  rfl

theorem shadow_respondIn :
    (r.respondIn ports iteration).shadow =
      (ports.filterMap (Device.completed? r.bench.toResponse.device iteration)).foldl
        Shadow.absorb r.shadow := by
  rw [respondIn, (enters_foldl_collect _ _ _).shadow, bench_foldl_checkIdle,
    foldl_checkIdle_frame]
  rfl

theorem completions_respondIn :
    (r.respondIn ports iteration).completions.toList = r.completions.toList ++
      ports.filterMap (Device.completed? r.bench.toResponse.device iteration) := by
  rw [respondIn, (enters_foldl_collect _ _ _).completions, bench_foldl_checkIdle,
    foldl_checkIdle_frame]
  rfl

theorem failures_respondIn :
    (r.respondIn ports iteration).failures.toList = r.failures.toList ++
      violations r.bench.toResponse.device r.bench.toResponse.time iteration ports ++
      (r.shadow.objections
        (ports.filterMap (Device.completed? r.bench.toResponse.device iteration))).map
        (Failure.ofObjection r.bench.toResponse.time) := by
  rw [respondIn, (enters_foldl_collect _ _ _).failures, failures_foldl_checkIdle,
    bench_foldl_checkIdle, foldl_checkIdle_frame]
  rfl

theorem requesters_respondIn {c : Port} (hc : c ∈ ports) :
    (r.respondIn ports iteration).requesters.get c =
      if (Device.handshake? r.bench.toResponse.device c).isSome then
        { r.requesters.get c with awaiting := false }
      else r.requesters.get c := by
  rw [respondIn, get_requesters_foldl_collect iteration hc, bench_foldl_checkIdle,
    foldl_checkIdle_frame]
  rfl

end AnyOrder

theorem bench_respond (iteration : Nat) (r : Run σ) :
    (r.respond iteration).bench =
      { r.bench.toResponse with records := (r.respond iteration).bench.records } :=
  bench_respondIn Port.all iteration r

theorem shadow_respond (iteration : Nat) (r : Run σ) :
    (r.respond iteration).shadow =
      (Device.entries r.bench.toResponse.device iteration).foldl Shadow.absorb r.shadow :=
  shadow_respondIn Port.all iteration r

theorem completions_respond (iteration : Nat) (r : Run σ) :
    (r.respond iteration).completions.toList =
      r.completions.toList ++ Device.entries r.bench.toResponse.device iteration :=
  completions_respondIn Port.all iteration r

theorem failures_respond (iteration : Nat) (r : Run σ) :
    (r.respond iteration).failures.toList = r.failures.toList ++
      violations r.bench.toResponse.device r.bench.toResponse.time iteration Port.all ++
      (r.shadow.objections (Device.entries r.bench.toResponse.device iteration)).map
        (Failure.ofObjection r.bench.toResponse.time) :=
  failures_respondIn Port.all iteration r

theorem requesters_respond (iteration : Nat) (r : Run σ) (c : Port) :
    (r.respond iteration).requesters.get c =
      if (Device.handshake? r.bench.toResponse.device c).isSome then
        { r.requesters.get c with awaiting := false }
      else r.requesters.get c :=
  requesters_respondIn Port.all iteration r (Port.mem_all c)

/-- After the response phase has landed an iteration only adds to the log of the bench. -/
theorem bench_iterate (r : Run σ) (k : Nat) :
    (r.iterate k).bench =
      { r.stimulate.bench.toResponse with records := (r.iterate k).bench.records } :=
  bench_respond k r.stimulate

theorem device_iterate (r : Run σ) (k : Nat) :
    (r.iterate k).bench.device = r.stimulate.bench.toResponse.device := by
  rw [bench_iterate]

end Device

end Run

end CrossbarBench
