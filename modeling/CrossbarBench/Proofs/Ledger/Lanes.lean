import Mathlib.Data.List.Induction
import CrossbarBench.Check.Shadow

/-! Who has written a byte. A write changes only the lanes that it enables, of a word that many
addresses select. So each lane holds the byte of the latest write that enables it, at whichever of
these addresses, and what reset has left where there is none. -/

namespace CrossbarBench

/-- A write that a shadow memory is told of. -/
structure Store where
  address : Word
  enables : ByteEnables
  data : Word
  deriving DecidableEq

namespace Store

/-- The write puts its byte into a lane of the word that an address selects. -/
def sets (map : AddressMap) (a : Word) (lane : Nat) (w : Store) : Bool :=
  map.decode w.address = map.decode a && w.enables.getLsbD lane

/-- The latest write that sets a lane. -/
def latest? (map : AddressMap) (a : Word) (lane : Nat) (writes : List Store) : Option Store :=
  writes.reverse.find? (sets map a lane)

/-- The write without the enables that select no lane. -/
def trimmed (w : Store) : Store := { w with enables := w.enables &&& 0xF }

theorem latest?_concat (map : AddressMap) (a : Word) (lane : Nat) (writes : List Store)
    (w : Store) :
    latest? map a lane (writes ++ [w]) =
      if w.sets map a lane then some w else latest? map a lane writes := by
  rw [latest?, List.reverse_concat, List.find?_cons]
  cases w.sets map a lane <;> rfl

end Store

theorem ByteEnables.getLsbD_trim (enables : ByteEnables) {i : Nat} (hi : i < 4) :
    (enables &&& 0xF).getLsbD i = enables.getLsbD i := by
  have h : ∀ i < 4, (0xF : ByteEnables).getLsbD i = true := by decide
  rw [BitVec.getLsbD_and, h i hi, Bool.and_true]

/-- Only the enables of the four lanes matter. -/
theorem Word.mergeLanes_trim (old new : Word) (enables : ByteEnables) :
    mergeLanes old new (enables &&& 0xF) = mergeLanes old new enables := by
  refine eq_of_lane_eq fun i hi => ?_
  rw [lane_mergeLanes _ _ _ _ hi, lane_mergeLanes _ _ _ _ hi, ByteEnables.getLsbD_trim enables hi]

namespace Shadow

def record (s : Shadow) (w : Store) : Shadow := (s.write w.address w.enables w.data).2

/-- The shadow memory after writes in order. -/
def recordAll (s : Shadow) (writes : List Store) : Shadow := writes.foldl record s

theorem recordAll_concat (s : Shadow) (writes : List Store) (w : Store) :
    s.recordAll (writes ++ [w]) = (s.recordAll writes).record w :=
  List.foldl_append

theorem map_recordAll (s : Shadow) (writes : List Store) : (s.recordAll writes).map = s.map := by
  induction writes using List.reverseRecOn with
  | nil => rfl
  | append_singleton writes w ih => rw [recordAll_concat, ← ih]; rfl

theorem write_trim (s : Shadow) (address : Word) (enables : ByteEnables) (data : Word) :
    s.write address (enables &&& 0xF) data = s.write address enables data := by
  simp only [write, Word.mergeLanes_trim]

theorem recordAll_trimmed (s : Shadow) (writes : List Store) :
    s.recordAll (writes.map Store.trimmed) = s.recordAll writes := by
  rw [recordAll, List.foldl_map]
  exact congrArg (fun f => writes.foldl f s)
    (funext fun s => funext fun w => congrArg Prod.snd (s.write_trim w.address w.enables w.data))

/-- A write returns the word that a read of its address then expects. -/
theorem expected_record_self (s : Shadow) (w : Store) :
    (s.record w).expected w.address = (s.write w.address w.enables w.data).1 := by
  rw [record, expected_write, if_pos rfl]

theorem expected_fresh (map : AddressMap) (a : Word) :
    (fresh map).expected a = Peripheral.resetPattern.get (Offset.wrap a.toNat) := by
  rw [fresh, expected, Table.get_replicate]
  rfl

theorem lane_expected_record (s : Shadow) (w : Store) (a : Word) {i : Nat} (hi : i < 4) :
    ((s.record w).expected a).lane i =
      if w.sets s.map a i then w.data.lane i else (s.expected a).lane i := by
  rw [record, expected_write]
  by_cases hd : s.map.decode w.address = s.map.decode a
  · -- the write merges into the word of its own address, which is the one looked at
    have hword : (s.write w.address w.enables w.data).1 =
        Word.mergeLanes (s.expected a) w.data w.enables := by
      rw [← expected_congr hd]
      rfl
    have hsets : w.sets s.map a i = w.enables.getLsbD i := by simp [Store.sets, hd]
    rw [if_pos hd, hword, Word.lane_mergeLanes _ _ _ _ hi, hsets]
  · have hsets : w.sets s.map a i = false := by simp [Store.sets, hd]
    rw [if_neg hd, hsets, if_neg Bool.false_ne_true]

theorem lane_expected_recordAll (s : Shadow) (writes : List Store) (a : Word) {i : Nat}
    (hi : i < 4) :
    ((s.recordAll writes).expected a).lane i =
      ((Store.latest? s.map a i writes).map fun w => w.data.lane i).getD
        ((s.expected a).lane i) := by
  induction writes using List.reverseRecOn with
  | nil => rfl
  | append_singleton writes w ih =>
    rw [recordAll_concat, lane_expected_record _ w a hi, map_recordAll, Store.latest?_concat, ih]
    cases w.sets s.map a i <;> rfl

/-- After any writes to a fresh shadow memory, on a bus of any width, each lane of each word is
that of the data of the latest write that sets it, or of the reset pattern if none does. Enables
that select no lane change nothing, and a write returns what its own address then reads. -/
theorem recordAll_lanes (map : AddressMap) (writes : List Store) :
    let s := (fresh map).recordAll writes
    (∀ (a : Word) (i : Fin 4), (s.expected a).lane i =
      ((Store.latest? map a i writes).map fun w => w.data.lane i).getD
        ((Peripheral.resetPattern.get (Offset.wrap a.toNat)).lane i)) ∧
    (fresh map).recordAll (writes.map Store.trimmed) = s ∧
    ∀ w : Store,
      s.write w.address (w.enables &&& 0xF) w.data = s.write w.address w.enables w.data ∧
      (s.write w.address w.enables w.data).1 =
        ((fresh map).recordAll (writes ++ [w])).expected w.address := by
  intro s
  refine ⟨fun a i => ?_, recordAll_trimmed _ writes, fun w => ⟨s.write_trim _ _ _, ?_⟩⟩
  · rw [← expected_fresh map a]
    exact lane_expected_recordAll (fresh map) writes a i.isLt
  · rw [recordAll_concat]
    exact (s.expected_record_self w).symm

/-- On a bus of two wires every address is a word of its own peripheral. The later write to 2 comes
through an alias and takes over one lane; enables above the fourth select nothing. -/
example :
    let s := (fresh ⟨2, by decide, by decide⟩).recordAll
      [⟨2, 0x3, 0x11223344⟩, ⟨0xFFFFFFF6, 0xF2, 0x55667788⟩, ⟨3, 0xF, 0⟩]
    s.expected 2 = 0x12347744 ∧ s.expected 1 = 0xF1BEF1BE := by decide

end Shadow

end CrossbarBench
