import CrossbarBench.Proofs.Bus.Decomposition
import CrossbarBench.Traffic.Random

/-! What random traffic looks like, whatever source its words come from. How many words a slot
takes depends on what is drawn, so which words it gets follows from all slots before it. But a
round leaves the source to the next one, so more rounds only add slots at the end. -/

namespace CrossbarBench

/-- What can be drawn for a port: an address that the bus carries, with a write only on a port
that can write and to one of the upper two peripherals, under the enables of the four lanes; a
read carries nothing else. -/
structure Request.Drawn (map : AddressMap) (port : Port) (q : Request) : Prop where
  address : q.address.toNat < 2 ^ map.width
  port : q.isWrite = true → port ≠ Port.one
  peripheral : q.isWrite = true →
    (map.decode q.address).1.val = 2 ∨ (map.decode q.address).1.val = 3
  enables : q.isWrite = true → q.enables.toNat < 16
  read : q.isWrite = false → q.enables = 0 ∧ q.data = 0

namespace Traffic

variable {σ : Type} {next : Source σ} {s : σ} {map : AddressMap} {port : Port} {q : Request}

/-! ### One slot -/

theorem drawn_read {address : Word} (h : address.toNat < 2 ^ map.width) :
    (Request.read address).Drawn map port where
  address := h
  port hw := absurd hw Bool.false_ne_true
  peripheral hw := absurd hw Bool.false_ne_true
  enables hw := absurd hw Bool.false_ne_true
  read _ := ⟨rfl, rfl⟩

theorem drawn_write {address : Word} (h : address.toNat < 2 ^ map.width) (hport : port ≠ Port.one)
    (hp : 2 ≤ (map.peripheral address).val) (enables : ByteEnables) (data : Word) :
    (Request.write address enables data).Drawn map port where
  address := h
  port _ := hport
  peripheral _ := by
    have hlt := (map.peripheral address).isLt
    change (map.peripheral address).val = 2 ∨ (map.peripheral address).val = 3
    omega
  enables _ := ByteEnables.toNat_trim_lt enables
  read hr := absurd hr.symm Bool.false_ne_true

theorem drawn_drawRequest {address : Word} (h : address.toNat < 2 ^ map.width) :
    (drawRequest next map port address s).1.Drawn map port := by
  unfold drawRequest
  split
  · rename_i hc
    dsimp only
    split
    · exact drawn_write h hc.1 hc.2 _ _
    · exact drawn_read h
  · exact drawn_read h

theorem drawn_drawSlot (h : (drawSlot next map port s).1 = some q) :
    q.Drawn map port := by
  unfold drawSlot at h
  dsimp only at h
  split at h
  · cases h
    exact drawn_drawRequest (map.mask_lt _)
  · cases h

/-! ### Rounds -/

theorem drawn_drawRound (h : (drawRound next map s).1.get port = some q) :
    q.Drawn map port := by
  rcases port.eq_one_or_two_or_three with rfl | rfl | rfl
  · exact drawn_drawSlot h
  · exact drawn_drawSlot h
  · exact drawn_drawSlot h

theorem drawn_drawRounds {n : Nat} {round : Table 3 Slot}
    (hm : round ∈ drawRounds next map n s) (h : round.get port = some q) : q.Drawn map port := by
  induction n generalizing s with
  | zero => cases hm
  | succ n ih =>
    rcases List.mem_cons.mp hm with rfl | hm
    · exact drawn_drawRound h
    · exact ih hm

theorem drawRounds_take (next : Source σ) (map : AddressMap) {n m : Nat} (h : n ≤ m) (s : σ) :
    (drawRounds next map m s).take n = drawRounds next map n s := by
  induction n generalizing m s with
  | zero => rfl
  | succ n ih =>
    obtain ⟨m, rfl⟩ : ∃ k, m = k + 1 := ⟨m - 1, by omega⟩
    have hrest := ih (m := m) (by omega) (drawRound next map s).2
    rw [drawRounds, drawRounds, List.take_succ_cons, hrest]

/-! ### Traffic -/

theorem get_draw (next : Source σ) (map : AddressMap) (count : Nat) (s : σ) (port : Port) :
    (draw next map count s).get port =
      (drawRounds next map count s).map fun round => round.get port :=
  Table.get_ofFn _ port

theorem length_draw (next : Source σ) (map : AddressMap) (count : Nat) (s : σ) (port : Port) :
    ((draw next map count s).get port).length = count := by
  rw [get_draw, List.length_map, length_drawRounds]

/-- From any source, shorter traffic is where longer traffic starts. -/
theorem draw_take (next : Source σ) (map : AddressMap) {n m : Nat} (h : n ≤ m) (s : σ)
    (port : Port) :
    ((draw next map m s).get port).take n = (draw next map n s).get port := by
  rw [get_draw, get_draw, ← List.map_take, drawRounds_take next map h]

/-- What is in the traffic of a port can be drawn for it. -/
theorem drawn_of_mem_draw {count : Nat} (h : some q ∈ (draw next map count s).get port) :
    q.Drawn map port := by
  rw [get_draw] at h
  obtain ⟨round, hm, hq⟩ := List.mem_map.mp h
  exact drawn_drawRounds hm hq

theorem length_random (map : AddressMap) (seed count : Nat) (port : Port) :
    ((random map seed count).get port).length = count :=
  length_draw Keystream.next map count (Keystream.ofSeed seed) port

/-- On every bus and for every seed, shorter traffic is where longer traffic starts, every port
has as many slots as were asked for, and what is in them can be drawn for the port. -/
theorem random_starts_alike (map : AddressMap) (seed : Nat) {n m : Nat} (h : n ≤ m) (port : Port) :
    (random map seed n).get port = ((random map seed m).get port).take n ∧
    ((random map seed n).get port).length = n ∧
    ∀ q, some q ∈ (random map seed n).get port → q.Drawn map port := by
  have htake := draw_take Keystream.next map h (Keystream.ofSeed seed) port
  exact ⟨htake.symm, length_random map seed n port, fun q hq => drawn_of_mem_draw hq⟩

/-- Two of three slots, with a read and a write. -/
theorem random_starts_alike_of_two :
    2 ≤ 3 ∧
    (random .standard 42 2).get Port.three =
      [some (.read 0x34D1), some (.write 0xB0DF 6 0x590878FB)] ∧
    (random .standard 42 2).get Port.three = ((random .standard 42 3).get Port.three).take 2 ∧
    ((random .standard 42 2).get Port.three).length = 2 ∧
    ∀ q, some q ∈ (random .standard 42 2).get Port.three → q.Drawn .standard Port.three :=
  ⟨by decide, by decide +kernel, random_starts_alike .standard 42 (by decide) Port.three⟩

end Traffic

end CrossbarBench
