import CrossbarBench.Crossbar.Basic
import CrossbarBench.Proofs.Run.Loop
import CrossbarBench.Proofs.Run.Response
import CrossbarBench.Proofs.Run.Stimulus
import CrossbarBench.Proofs.Run.Unroll

/-! The checker is exact, whatever the device answers. A run keeps its ledger in order of
iteration and port, its shadow memory at the replay of that ledger, and its mismatches at
the objections that the replay of each read's predecessors raises. -/

namespace CrossbarBench

namespace Device

variable {σ : Type} [Device σ]

theorem place_of_mem_completed? {d : σ} {iteration : Nat} {port : Port} {c : Completion}
    (h : c ∈ completed? d iteration port) : c.iteration = iteration ∧ c.port = port := by
  obtain ⟨shake, -, rfl⟩ := Option.map_eq_some_iff.mp h
  exact ⟨rfl, rfl⟩

theorem iteration_of_mem_entries {d : σ} {iteration : Nat} {c : Completion}
    (h : c ∈ entries d iteration) : c.iteration = iteration := by
  obtain ⟨port, -, hc⟩ := List.mem_filterMap.mp h
  exact (place_of_mem_completed? hc).1

/-- The entries of one response phase come from lower ports to higher ones. -/
theorem entries_ordered (d : σ) (iteration : Nat) :
    (entries d iteration).Pairwise Completion.Precedes := by
  have hp : Port.all.Pairwise (· < ·) := by decide
  refine hp.filterMap _ fun p q hpq c hc c' hc' => .inr ?_
  obtain ⟨hi, rfl⟩ := place_of_mem_completed? hc
  obtain ⟨hi', rfl⟩ := place_of_mem_completed? hc'
  exact ⟨hi.trans hi'.symm, hpq⟩

end Device

namespace Failure

variable {f : Failure}

theorem kinds_of_isProtocolViolation (h : f.isProtocolViolation = true) :
    f.isDataMismatch = false ∧ f.isTimeout = false := by
  have hk : f.kind = .protocolViolation := of_decide_eq_true h
  simp only [isDataMismatch, isTimeout, hk, and_self]

theorem kinds_of_isDataMismatch (h : f.isDataMismatch = true) :
    f.isProtocolViolation = false ∧ f.isTimeout = false := by
  unfold isDataMismatch at h
  split at h
  · rename_i hk
    simp [isProtocolViolation, isTimeout, hk]
  · cases h

theorem kinds_of_isTimeout (h : f.isTimeout = true) :
    f.isProtocolViolation = false ∧ f.isDataMismatch = false := by
  unfold isTimeout at h
  split at h
  · rename_i hk
    simp [isProtocolViolation, isDataMismatch, hk]
  · cases h

end Failure

namespace Run

variable {σ : Type} {map : AddressMap} {k : Nat} {r : Run σ}

/-- The ledger before iteration `k` is in order, and both the shadow memory and the
mismatches are what it asks for. -/
structure Audited (map : AddressMap) (k : Nat) (r : Run σ) : Prop where
  ordered : r.completions.toList.Pairwise Completion.Precedes
  before : ∀ c ∈ r.completions.toList, c.iteration < k
  replayed : r.shadow = Shadow.replay map r.completions.toList
  judged : (r.failures.toList.filter Failure.isDataMismatch).map Failure.finding =
    Shadow.mismatches map r.completions.toList

section Found
variable [Device σ] {d : σ} {time iteration : Nat} {shadow : Shadow} {entries : List Completion}

theorem isProtocolViolation_of_mem_violations {ports : List Port} {f : Failure}
    (h : f ∈ violations d time iteration ports) : f.isProtocolViolation = true := by
  obtain ⟨port, -, rfl⟩ := List.mem_map.mp h
  rfl

theorem isDataMismatch_of_mem_objections {f : Failure}
    (h : f ∈ (shadow.objections entries).map (Failure.ofObjection time)) :
    f.isDataMismatch = true := by
  obtain ⟨o, ho, rfl⟩ := List.mem_map.mp h
  exact Shadow.isDataMismatch_of_mem_objections ho rfl

variable (d time iteration shadow entries)

/-- Of the failures that a response phase finds only the objections are mismatches. -/
theorem mismatches_found :
    ((violations d time iteration Port.all ++
        (shadow.objections entries).map (Failure.ofObjection time)).filter
      Failure.isDataMismatch).map Failure.finding =
      (shadow.objections entries).map fun o => (o.1.iteration, some o.1.port, o.2) := by
  have hv : (violations d time iteration Port.all).filter Failure.isDataMismatch = [] :=
    List.filter_eq_nil_iff.mpr fun f hf => by
      simp [(Failure.kinds_of_isProtocolViolation (isProtocolViolation_of_mem_violations hf)).1]
  have ho : ((shadow.objections entries).map (Failure.ofObjection time)).filter
      Failure.isDataMismatch = (shadow.objections entries).map (Failure.ofObjection time) :=
    List.filter_eq_self.mpr fun f hf => isDataMismatch_of_mem_objections hf
  rw [List.filter_append, hv, ho, List.nil_append, List.map_map]
  rfl

/-- What it finds that is not a mismatch is a violation. -/
theorem violations_found :
    (violations d time iteration Port.all ++
        (shadow.objections entries).map (Failure.ofObjection time)).filter
      Failure.isProtocolViolation = violations d time iteration Port.all := by
  have hv : (violations d time iteration Port.all).filter Failure.isProtocolViolation =
      violations d time iteration Port.all :=
    List.filter_eq_self.mpr fun f hf => isProtocolViolation_of_mem_violations hf
  have ho : ((shadow.objections entries).map (Failure.ofObjection time)).filter
      Failure.isProtocolViolation = [] :=
    List.filter_eq_nil_iff.mpr fun f hf => by
      simp [(Failure.kinds_of_isDataMismatch (isDataMismatch_of_mem_objections hf)).1]
  rw [List.filter_append, hv, ho, List.append_nil]

theorem timeouts_found :
    (violations d time iteration Port.all ++
        (shadow.objections entries).map (Failure.ofObjection time)).filter
      Failure.isTimeout = [] := by
  refine List.filter_eq_nil_iff.mpr fun f hf => ?_
  rcases List.mem_append.mp hf with hf | hf
  · simp [(Failure.kinds_of_isProtocolViolation (isProtocolViolation_of_mem_violations hf)).2]
  · simp [(Failure.kinds_of_isDataMismatch (isDataMismatch_of_mem_objections hf)).2]

end Found

namespace Audited

theorem start (bench : Testbench σ) (sequences : Table 3 (List Slot)) :
    (Run.start map bench sequences).Audited map 1 where
  ordered := .nil
  before := nofun
  replayed := rfl
  judged := rfl

theorem timeOut (h : r.Audited map k) (limit iteration : Nat) :
    (r.timeOut limit iteration).Audited map k where
  ordered := h.ordered
  before := h.before
  replayed := h.replayed
  judged := by
    refine Eq.trans ?_ h.judged
    simp [Run.timeOut, fail, Failure.isDataMismatch]

variable [Device σ]

theorem stimulate (h : r.Audited map k) : r.stimulate.Audited map k := by
  rw [stimulate_frame]
  exact ⟨h.ordered, h.before, h.replayed, h.judged⟩

/-- Lower ports retire first, so their writes are in the shadow memory for the reads of
higher ones. -/
theorem respond (h : r.Audited map k) : (r.respond k).Audited map (k + 1) where
  ordered := by
    rw [completions_respond, List.pairwise_append]
    refine ⟨h.ordered, Device.entries_ordered _ k, fun c hc c' hc' => .inl ?_⟩
    rw [Device.iteration_of_mem_entries hc']
    exact h.before c hc
  before c hc := by
    rw [completions_respond, List.mem_append] at hc
    rcases hc with hc | hc
    · exact Nat.lt_succ_of_lt (h.before c hc)
    · rw [Device.iteration_of_mem_entries hc]
      exact Nat.lt_succ_self k
  replayed := by
    rw [shadow_respond, completions_respond, Shadow.replay_append, h.replayed]
  judged := by
    rw [failures_respond, List.append_assoc, List.filter_append, List.map_append, h.judged,
      mismatches_found, completions_respond, Shadow.mismatches_eq_objections,
      Shadow.mismatches_eq_objections, Shadow.objections_append, List.map_append, h.replayed]
    rfl

theorem iterate (h : r.Audited map k) : (r.iterate k).Audited map (k + 1) :=
  h.stimulate.respond

end Audited

end Run

namespace Testbench

variable {σ : Type} [Device σ]

theorem audited_unroll (b : Testbench σ) (map : AddressMap) (s : Scenario) (n : Nat) :
    (b.unroll map s n).Audited map (n + 1) :=
  unroll_induction (P := fun n r => r.Audited map (n + 1)) (.start _ _)
    (fun _ _ h => h.iterate) n

/-- Until it is cut off a run finds no timeout. -/
theorem timeouts_unroll (b : Testbench σ) (map : AddressMap) (s : Scenario)
    (n : Nat) : (b.unroll map s n).failures.toList.filter Failure.isTimeout = [] := by
  induction n with
  | zero => rfl
  | succ n ih =>
    rw [unroll, Run.failures_iterate, List.filter_append, ih, Run.timeouts_found, List.nil_append]

/-- Whatever the device does, the ledger is in order, the shadow memory is the replay of its
writes, and the mismatches are the reads that differ from the replay of what precedes them. -/
theorem perform_audit_exact {b : Testbench σ} {s : Scenario} {map : AddressMap}
    (width : Device.addressWidth b.device = map.width) :
    ∃ report bench, b.perform s = .ok (report, bench) ∧
      report.completions.Pairwise Completion.Precedes ∧
      report.shadow = Shadow.replay map report.completions ∧
      report.dataMismatches.map Failure.finding = Shadow.mismatches map report.completions := by
  rcases perform_ends (P := fun k r => r.Audited map k) (s := s) width (.start _ _)
    (fun _ _ h _ => h.iterate) with ⟨n, r, -, -, h, -, hp⟩ | ⟨n, r, -, h, hp⟩
  · have hr := h.iterate
    exact ⟨_, _, hp, hr.ordered, hr.replayed, hr.judged⟩
  · have hr := h.timeOut s.limit n
    exact ⟨_, _, hp, hr.ordered, hr.replayed, hr.judged⟩

/-- A device that flips a bit of every read answer, asked for one word. -/
theorem perform_audit_exact_of_corrupted :
    Device.addressWidth (new (Crossbar.initial.withCorruption 1)).device =
        AddressMap.standard.width ∧
      ∃ report bench,
        (new (Crossbar.initial.withCorruption 1)).perform
            { Scenario.blank "corrupted" with
              sequences := #v[[some (.read 0x8001)], [some (.write 0x8001 0xF 0)], []] } =
          .ok (report, bench) ∧
        report.completions.Pairwise Completion.Precedes ∧
        report.shadow = Shadow.replay .standard report.completions ∧
        report.dataMismatches.map Failure.finding =
          Shadow.mismatches .standard report.completions :=
  ⟨rfl, perform_audit_exact rfl⟩

end Testbench

end CrossbarBench
