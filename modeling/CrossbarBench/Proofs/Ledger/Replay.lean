import Mathlib.Data.List.Basic
import Mathlib.Data.List.Induction
import CrossbarBench.Check.Report

/-! The completions of a run read as a ledger. Replaying its writes rebuilds a shadow
memory, and each of its reads is judged by the replay of what precedes it. A ledger that
grows is judged as it grows: the objections to further entries follow from the shadow
memory that the old ones leave. -/

namespace CrossbarBench

namespace Completion

/-- Earlier iterations come first, then lower ports. -/
def Precedes (c d : Completion) : Prop :=
  c.iteration < d.iteration ∨ c.iteration = d.iteration ∧ c.port < d.port

end Completion

namespace Failure

/-- Where a failure was found and what it is, without the time. -/
def finding (f : Failure) : Nat × Option Port × FailureKind := (f.iteration, f.port, f.kind)

end Failure

namespace Shadow

/-- The shadow memory after a completion, which changes it only by writing. -/
def absorb (s : Shadow) (c : Completion) : Shadow :=
  match c.access with
  | .read _ => s
  | .write enables data => (s.write c.address enables data).2

/-- The shadow memory after the writes of a ledger, from a fresh one. -/
def replay (map : AddressMap) (ledger : List Completion) : Shadow :=
  ledger.foldl absorb (fresh map)

/-- What is wrong with a completion when the shadow memory is right. -/
def objection? (s : Shadow) (c : Completion) : Option FailureKind :=
  match c.access with
  | .read data =>
    if data = s.expected c.address then none
    else some (.dataMismatch c.address (s.expected c.address) data)
  | .write .. => none

/-- The objections to further entries, each by the shadow memory that the entries before it
leave. -/
def objections (s : Shadow) : List Completion → List (Completion × FailureKind)
  | [] => []
  | c :: rest => ((s.objection? c).map fun kind => (c, kind)).toList ++ objections (s.absorb c) rest

/-- The objection to entry `n` of a ledger, by the replay of the entries before it. -/
def verdict? (map : AddressMap) (ledger : List Completion) (n : Nat) :
    Option (Nat × Option Port × FailureKind) :=
  ledger[n]?.bind fun c =>
    ((replay map (ledger.take n)).objection? c).map fun kind => (c.iteration, some c.port, kind)

/-- The objections to a ledger, in its order. -/
def mismatches (map : AddressMap) (ledger : List Completion) :
    List (Nat × Option Port × FailureKind) :=
  (List.range ledger.length).filterMap (verdict? map ledger)

@[simp] theorem map_absorb (s : Shadow) (c : Completion) : (s.absorb c).map = s.map := by
  unfold absorb
  split <;> rfl

theorem replay_append (map : AddressMap) (ledger more : List Completion) :
    replay map (ledger ++ more) = more.foldl absorb (replay map ledger) :=
  List.foldl_append

theorem map_foldl_absorb (s : Shadow) (ledger : List Completion) :
    (ledger.foldl absorb s).map = s.map := by
  induction ledger generalizing s with
  | nil => rfl
  | cons c ledger ih => exact (ih (s.absorb c)).trans (map_absorb s c)

@[simp] theorem map_replay (map : AddressMap) (ledger : List Completion) :
    (replay map ledger).map = map := map_foldl_absorb (fresh map) ledger

theorem objections_append (s : Shadow) (ledger more : List Completion) :
    s.objections (ledger ++ more) =
      s.objections ledger ++ (ledger.foldl absorb s).objections more := by
  induction ledger generalizing s with
  | nil => rfl
  | cons c ledger ih =>
    rw [List.cons_append, objections, ih, objections, List.append_assoc, List.foldl_cons]

/-- Entries are judged without regard to what follows them. -/
theorem verdict?_append_of_lt (map : AddressMap) (ledger more : List Completion) {n : Nat}
    (h : n < ledger.length) : verdict? map (ledger ++ more) n = verdict? map ledger n := by
  rw [verdict?, verdict?, List.getElem?_append_left h,
    List.take_append_of_le_length (Nat.le_of_lt h)]

theorem verdict?_concat (map : AddressMap) (ledger : List Completion) (c : Completion) :
    verdict? map (ledger ++ [c]) ledger.length =
      ((replay map ledger).objection? c).map fun kind => (c.iteration, some c.port, kind) := by
  rw [verdict?, List.getElem?_concat_length, List.take_left, Option.bind_some]

theorem mismatches_concat (map : AddressMap) (ledger : List Completion) (c : Completion) :
    mismatches map (ledger ++ [c]) = mismatches map ledger ++
      (((replay map ledger).objection? c).map fun kind =>
        (c.iteration, some c.port, kind)).toList := by
  rw [mismatches, List.length_append, List.length_singleton, List.range_succ,
    List.filterMap_append]
  congr 1
  · exact List.filterMap_congr fun n hn =>
      verdict?_append_of_lt map ledger [c] (List.mem_range.mp hn)
  · rw [← verdict?_concat, List.filterMap_cons, List.filterMap_nil]
    cases verdict? map (ledger ++ [c]) ledger.length <;> rfl

/-- Judging a ledger entry by entry is judging it as it grows. -/
theorem mismatches_eq_objections (map : AddressMap) (ledger : List Completion) :
    mismatches map ledger =
      ((fresh map).objections ledger).map fun o => (o.1.iteration, some o.1.port, o.2) := by
  induction ledger using List.reverseRecOn with
  | nil => rfl
  | append_singleton ledger c ih =>
    rw [mismatches_concat, objections_append, List.map_append, ih]
    congr 1
    rw [objections, objections, List.append_nil]
    change _ = (((replay map ledger).objection? c).map fun kind => (c, kind)).toList.map _
    cases (replay map ledger).objection? c <;> rfl

/-- A write is seen by a read of the same iteration on a higher port, not by one before it. -/
example : mismatches .standard
    [⟨2, Port.one, 0x8001, .read 7⟩, ⟨2, Port.two, 0x8001, .write 0xF 7⟩,
      ⟨2, Port.three, 0x8001, .read 7⟩] =
    [(2, some Port.one, .dataMismatch 0x8001 0xF1BEF1BE 7)] := by decide

/-- Where nothing is objected to, every read carries the word that the writes before it
leave. -/
theorem read_eq_of_mismatches_nil {map : AddressMap} {ledger : List Completion}
    (h : mismatches map ledger = []) {n : Nat} {c : Completion} {data : Word}
    (hc : ledger[n]? = some c) (hr : c.access = .read data) :
    data = (replay map (ledger.take n)).expected c.address := by
  have hn : n ∈ List.range ledger.length :=
    List.mem_range.mpr (List.getElem?_eq_some_iff.mp hc).1
  have hv := List.filterMap_eq_nil_iff.mp h n hn
  rw [verdict?, hc, Option.bind_some, Option.map_eq_none_iff, objection?, hr] at hv
  dsimp only at hv
  split at hv
  · assumption
  · cases hv

/-- A ledger in order, with nothing from iteration `k` on, is its part before the last
iteration and then the last one. -/
theorem split_last {ledger : List Completion} {k : Nat}
    (ho : ledger.Pairwise Completion.Precedes) (hk : ∀ c ∈ ledger, c.iteration < k) :
    ledger = (ledger.filter fun c => c.iteration + 1 < k) ++
      ledger.filter fun c => c.iteration + 1 = k := by
  induction ledger with
  | nil => rfl
  | cons c ledger ih =>
    obtain ⟨hc, ho⟩ := List.pairwise_cons.mp ho
    have hck := hk c List.mem_cons_self
    have ih := ih ho fun d hd => hk d (List.mem_cons_of_mem c hd)
    by_cases hlt : c.iteration + 1 < k
    · have hne : c.iteration + 1 ≠ k := Nat.ne_of_lt hlt
      simp only [List.filter_cons, hlt, hne, decide_true, decide_false, ↓reduceIte,
        Bool.false_eq_true, List.cons_append]
      rw [← ih]
    · -- the last iteration has begun, so nothing earlier follows
      have hlast : ∀ d ∈ ledger, d.iteration + 1 = k := fun d hd => by
        have hdk := hk d (List.mem_cons_of_mem c hd)
        rcases hc d hd with h | ⟨h, -⟩ <;> omega
      have hnil : ledger.filter (fun c => c.iteration + 1 < k) = [] :=
        List.filter_eq_nil_iff.mpr fun d hd => by simp [hlast d hd]
      have hall : ledger.filter (fun c => c.iteration + 1 = k) = ledger :=
        List.filter_eq_self.mpr fun d hd => by simp [hlast d hd]
      have heq : c.iteration + 1 = k := by omega
      rw [List.filter_cons, List.filter_cons, hnil, hall]
      simp [heq]

theorem read_of_objection? {s : Shadow} {c : Completion} {kind : FailureKind}
    (h : s.objection? c = some kind) :
    ∃ data, c.access = .read data ∧ kind = .dataMismatch c.address (s.expected c.address) data := by
  unfold objection? at h
  split at h
  · rename_i data hc
    split at h
    · cases h
    · exact ⟨data, hc, (Option.some.inj h).symm⟩
  · cases h

/-- Only entries are objected to, each for what it has read. -/
theorem read_of_mem_objections {s : Shadow} {ledger : List Completion}
    {o : Completion × FailureKind} (h : o ∈ s.objections ledger) :
    o.1 ∈ ledger ∧ ∃ data expected, o.1.access = .read data ∧
      o.2 = .dataMismatch o.1.address expected data := by
  induction ledger generalizing s with
  | nil => cases h
  | cons c ledger ih =>
    rw [objections, List.mem_append] at h
    rcases h with h | h
    · rw [Option.mem_toList, Option.map_eq_some_iff] at h
      obtain ⟨kind, hk, rfl⟩ := h
      obtain ⟨data, hc, hd⟩ := read_of_objection? hk
      exact ⟨List.mem_cons_self, data, _, hc, hd⟩
    · exact ⟨List.mem_cons_of_mem c (ih h).1, (ih h).2⟩

/-- Only a mismatch is objected to. -/
theorem isDataMismatch_of_mem_objections {s : Shadow} {ledger : List Completion}
    {o : Completion × FailureKind} (h : o ∈ s.objections ledger) {f : Failure}
    (hf : f.kind = o.2) : f.isDataMismatch = true := by
  obtain ⟨-, data, expected, -, ho⟩ := read_of_mem_objections h
  rw [Failure.isDataMismatch, hf, ho]

end Shadow

end CrossbarBench
