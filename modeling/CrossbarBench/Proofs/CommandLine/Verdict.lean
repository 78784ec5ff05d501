import CrossbarBench.CommandLine.Session
import CrossbarBench.Proofs.Traffic.Sweep

/-! What a session on the crossbar ends with. The crossbar of a session has no injected faults, so
a run passes unless its limit cuts it off, and only the sweep has limits that its traffic may not
meet. The verdict tells of the runs that were cut off and of no others, and the status counts them
as far as it can. -/

namespace CrossbarBench

namespace Catalogue

variable {seed count : Nat} {name : String}

/-! ### Names -/

theorem find_unknown (map : AddressMap) (seed count : Nat) (h : name ∉ names) :
    find map seed count name = .error (.scenario name) := by
  unfold find
  split
  · exact absurd (by decide) h
  · exact absurd (by decide) h
  · exact absurd (by decide) h
  · exact absurd (by decide) h
  · exact absurd (by decide) h
  · rfl

/-- A name stands for scenarios that drain below their limits in any case, or for the sweep. -/
theorem find_known (seed : Nat) (hcount : 10 * count * 120 < 2 ^ 64) (h : name ∈ names) :
    ∃ group, find .standard seed count name = .ok group ∧
      ∀ s ∈ group, s.latest < s.limit ∨ s ∈ sweepDelays.map (sweepAt .standard seed count) := by
  have hfixed : ∀ {group : List Scenario}, (∀ s ∈ group, s.latest < s.limit) →
      ∀ s ∈ group, s.latest < s.limit ∨ s ∈ sweepDelays.map (sweepAt .standard seed count) :=
    fun hg s hs => .inl (hg s hs)
  simp only [names, List.mem_cons, List.not_mem_nil, or_false] at h
  rcases h with rfl | rfl | rfl | rfl | rfl
  · exact ⟨_, rfl, hfixed (by decide +kernel)⟩
  · exact ⟨_, rfl, hfixed (by decide +kernel)⟩
  · exact ⟨_, rfl, hfixed (by decide +kernel)⟩
  · exact ⟨_, rfl, hfixed (by decide +kernel)⟩
  · exact ⟨_, delaySweep_eq .standard seed hcount, fun s hs => .inr hs⟩

theorem exists_groups (seed : Nat) (hcount : 10 * count * 120 < 2 ^ 64) {selection : List String}
    (h : ∀ name ∈ selection, name ∈ names) :
    ∃ groups, selection.mapM (find .standard seed count) = .ok groups ∧
      List.Forall₂ (fun name group => find .standard seed count name = .ok group)
        selection groups ∧
      ∀ s ∈ groups.flatten,
        s.latest < s.limit ∨ s ∈ sweepDelays.map (sweepAt .standard seed count) := by
  choose! group hgroup using fun name hn => find_known seed hcount (h name hn)
  refine ⟨selection.map group, mapM_eq_ok fun name hn => (hgroup name hn).1, ?_, ?_⟩
  · rw [List.forall₂_map_right_iff, List.forall₂_same]
    exact fun name hn => (hgroup name hn).1
  · intro s hs
    rw [← List.flatMap_def, List.mem_flatMap] at hs
    obtain ⟨name, hn, hs⟩ := hs
    exact (hgroup name hn).2 s hs

/-- The first unknown name is the one that is told of. -/
theorem select_unknown (seed : Nat) (hcount : 10 * count * 120 < 2 ^ 64)
    {before after : List String} (hbefore : ∀ known ∈ before, known ∈ names)
    (hname : name ∉ names) :
    select .standard seed count (before ++ name :: after) = .error (.scenario name) := by
  obtain ⟨groups, hgroups, -, -⟩ := exists_groups seed hcount hbefore
  rw [select, List.mapM_append, hgroups, List.mapM_cons, find_unknown .standard seed count hname]
  rfl

end Catalogue

/-! ### Verdicts -/

namespace Summary

/-- The reports of the runs that were cut off. -/
def cutOff (s : Summary) : List Report := s.reports.filter fun report => report.outcome = .aborted

/-- Every run ended without failures. -/
def Clean (s : Summary) : Prop :=
  ∀ report ∈ s.reports, report.outcome = .done ∧ report.failures = []

/-- No run failed but by its limit. -/
def FailsByLimit (s : Summary) : Prop :=
  ∀ report ∈ s.reports, ∃ limit n, report.EndsBy limit n

variable {s : Summary}

theorem errorCount_eq_length_cutOff (h : s.FailsByLimit) : s.errorCount = s.cutOff.length := by
  unfold errorCount cutOff
  unfold FailsByLimit at h
  revert h
  induction s.reports with
  | nil => exact fun _ => rfl
  | cons report reports ih =>
    intro h
    obtain ⟨limit, n, hend⟩ := h report List.mem_cons_self
    rw [List.foldr_cons, ih fun r hr => h r (List.mem_cons_of_mem report hr), hend.errorCount_eq,
      List.filter_cons]
    simp only [decide_eq_true_eq]
    split
    · rw [List.length_cons, Nat.add_comm]
    · exact Nat.zero_add _

theorem failed_eq_cutOff (h : s.FailsByLimit) : s.reports.filter (!·.passed) = s.cutOff := by
  refine List.filter_congr fun report hr => ?_
  obtain ⟨limit, n, hend⟩ := h report hr
  rw [hend.passed_eq, Bool.not_not]

theorem cutOff_eq_nil_iff (h : s.FailsByLimit) : s.cutOff = [] ↔ s.Clean := by
  rw [cutOff, List.filter_eq_nil_iff]
  refine forall₂_congr fun report hr => ?_
  obtain ⟨limit, n, hend⟩ := h report hr
  rcases Nat.lt_or_ge n limit with hl | hl
  · obtain ⟨ho, -, hf⟩ := hend.done hl
    simp [ho, hf]
  · obtain ⟨ho, -, -⟩ := hend.aborted hl
    simp [ho]

end Summary

namespace CommandLine

/-- The verdict on runs of which some were cut off: it lists those in order with one error each, and
their number is the status, as far as 255. -/
def tally (s : Summary) : Transcript :=
  ⟨min s.cutOff.length 255, [opening, "Testbench finished."] ++
    s.cutOff.map (fun report => s!"  {report.name}: 1 errors") ++
    [if s.cutOff.isEmpty then "🎉 OK." else s!"❌ {s.cutOff.length} errors!"], none⟩

/-- A transcript that is the tally of a campaign, and good exactly if every run is. -/
structure Transcript.Tallies (t : Transcript) (s : Summary) : Prop where
  text : t = tally s
  status : t.status = 0 ↔ s.Clean
  good : t = ⟨0, [opening, "Testbench finished.", "🎉 OK."], none⟩ ↔ s.Clean

theorem finished_eq {s : Summary} (h : s.FailsByLimit) : finished s = tally s := by
  have hlines : s.cutOff.map (fun report => s!"  {report.name}: {report.errorCount} errors") =
      s.cutOff.map fun report => s!"  {report.name}: 1 errors" := by
    refine List.map_congr_left fun report hr => ?_
    obtain ⟨hr, ho⟩ := List.mem_filter.mp hr
    obtain ⟨limit, n, hend⟩ := h report hr
    rw [hend.errorCount_eq, if_pos (of_decide_eq_true ho)]
    change _ = "  " ++ report.name ++ (": " ++ toString 1 ++ " errors")
    simp only [String.append_assoc]
    rfl
  have hpassed : s.passed = s.cutOff.isEmpty := by
    rw [Summary.passed, Summary.errorCount_eq_length_cutOff h]
    cases s.cutOff <;> rfl
  rw [finished, Summary.failed_eq_cutOff h, Summary.errorCount_eq_length_cutOff h, hlines, hpassed,
    tally]

theorem finished_tallies {s : Summary} (h : s.FailsByLimit) : (finished s).Tallies s where
  text := finished_eq h
  status := by
    rw [← Summary.cutOff_eq_nil_iff h, finished_eq h, tally, ← List.length_eq_zero_iff]
    dsimp only
    omega
  good := by
    rw [← Summary.cutOff_eq_nil_iff h, finished_eq h, tally]
    cases s.cutOff with
    | nil => simp
    | cons report rest => simp

/-! ### Sessions -/

/-- The campaign of these options on a new crossbar: what the names stand for, in order and as
often as they are given. Only runs of the sweep are cut off. -/
def Options.RunsTo (o : Options) (s : Summary) : Prop :=
  ∃ groups sweep last,
    List.Forall₂ (fun name group =>
      Catalogue.find .standard o.seed o.fuzzRequests name = .ok group) o.selection groups ∧
    Catalogue.delaySweep .standard o.seed o.fuzzRequests = .ok sweep ∧
    (Testbench.new Crossbar.initial).campaign groups.flatten = .ok (s, last) ∧
    List.Forall₂ (fun scenario report => report.name = scenario.name ∧
      (report.outcome = .aborted → scenario ∈ sweep)) groups.flatten s.reports

/-- How a session with these options ends: it runs nothing and tells of the first unknown name, or
it knows all names and tells of their campaign. -/
structure Options.EndsWith (o : Options) (t : Transcript) : Prop where
  unknown : ∀ before name after, o.selection = before ++ name :: after →
    (∀ known ∈ before, known ∈ Catalogue.names) → name ∉ Catalogue.names →
      t = failed (Fault.scenario name).message
  known : (∀ name ∈ o.selection, name ∈ Catalogue.names) → ∃ s, o.RunsTo s ∧ t.Tallies s

variable {arguments : List String} {o : Options}

/-- A session on the crossbar ends with the verdict on its campaign. -/
theorem session_eq {scenarios : List Scenario} {summary : Summary} {last : Testbench Crossbar}
    (hbackend : o.backend = .behavioral)
    (hselect : Catalogue.select .standard o.seed o.fuzzRequests o.selection = .ok scenarios)
    (hrun : (Testbench.new Crossbar.initial).campaign scenarios = .ok (summary, last)) :
    session o = finished summary := by
  rw [session, hselect]
  dsimp only
  rw [hbackend]
  dsimp only
  rw [hrun]

/-- The campaign of known names: a scenario that drains below its limit in any case is not cut
off, and all others are of the sweep. -/
theorem exists_runsTo (hbackend : o.backend = .behavioral)
    (hcount : 10 * o.fuzzRequests * 120 < 2 ^ 64)
    (hknown : ∀ name ∈ o.selection, name ∈ Catalogue.names) :
    ∃ s, o.RunsTo s ∧ s.FailsByLimit ∧ session o = finished s := by
  obtain ⟨groups, hmap, hfind, hgroups⟩ := Catalogue.exists_groups o.seed hcount hknown
  have hb := Testbench.Healthy.new
  obtain ⟨reports, last, hall, hends⟩ := hb.performAll groups.flatten
  have hrun := Testbench.campaign_eq hall
  have hselect : Catalogue.select .standard o.seed o.fuzzRequests o.selection =
      .ok groups.flatten := by
    rw [Catalogue.select, hmap]
    rfl
  refine ⟨⟨reports⟩, ⟨groups, _, last, hfind, Catalogue.delaySweep_eq .standard o.seed hcount,
    hrun, ?_⟩, ?_, session_eq hbackend hselect hrun⟩
  · refine ((List.forall₂_and_left _ _).mpr ⟨hgroups, hends⟩).imp fun s report hs => ?_
    obtain ⟨hs, hname, n, hn, hend⟩ := hs
    refine ⟨hname, fun ho => hs.resolve_left fun hlt => ?_⟩
    have hdone := (hend.done (Nat.lt_of_le_of_lt (hn.le_latest hb.reached) hlt)).1
    rw [ho] at hdone
    cases hdone
  · intro report hr
    obtain ⟨s, -, -, n, -, hend⟩ := Testbench.exists_scenario hends hr
    exact ⟨s.limit, n, hend⟩

theorem session_endsWith (hbackend : o.backend = .behavioral)
    (hcount : 10 * o.fuzzRequests * 120 < 2 ^ 64) : o.EndsWith (session o) where
  unknown before name after hselection hbefore hname := by
    rw [session, hselection, Catalogue.select_unknown o.seed hcount hbefore hname]
    rfl
  known hknown := by
    obtain ⟨s, hruns, hfails, hsession⟩ := exists_runsTo hbackend hcount hknown
    rw [hsession]
    exact ⟨s, hruns, finished_tallies hfails⟩

/-- With the crossbar as it is built in, a session either tells of the first unknown name and runs
nothing, or it runs what the names stand for, in order and as often as they are given. Then only
runs of the sweep are cut off. The verdict lists those in order with one error each, and their
number is the status, as far as 255. So the status is zero and the verdict good exactly if every run
ends without failures. -/
theorem run_counts_cut_off (hparse : parse arguments = .ok o) (hbackend : o.backend = .behavioral)
    (hcount : 10 * o.fuzzRequests * 120 < 2 ^ 64) : o.EndsWith (run arguments) := by
  have hrun : run arguments = session o := by rw [run, hparse]
  rw [hrun]
  exact session_endsWith hbackend hcount

/-- All scenarios with a single slot of random traffic, too little for some limits of the sweep. -/
theorem run_counts_cut_off_of_one_slot :
    let arguments := ["--fuzz-requests=1"]
    let o := { Options.default with fuzzRequests := 1 }
    (parse arguments = .ok o ∧ o.backend = .behavioral ∧ 10 * o.fuzzRequests * 120 < 2 ^ 64) ∧
    (∀ name ∈ o.selection, name ∈ Catalogue.names) ∧ o.EndsWith (run arguments) :=
  have hcount : 10 * 1 * 120 < 2 ^ 64 := by decide
  ⟨⟨rfl, rfl, hcount⟩, fun _ h => h, run_counts_cut_off rfl rfl hcount⟩

end CommandLine

end CrossbarBench
