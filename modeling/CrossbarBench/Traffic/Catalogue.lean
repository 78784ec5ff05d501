import CrossbarBench.Traffic.Random
import CrossbarBench.Traffic.Scenario

/-! The scenarios that a bench can be asked for by name. -/

namespace CrossbarBench.Catalogue

/-- One read on each port, in slots apart and from different peripherals. -/
def staggeredReads (map : AddressMap) : Except Fault Scenario := do
  let s := ((Scenario.blank "simple_read").withDelays #v[1, 2, 3, 4]).withLimit 100
  let s ← s.padIdle [1, 2, 3] 50
  let s ← s.place 1 10 (.read (map.base 0))
  let s ← s.place 2 20 (.read (map.base 1))
  s.place 3 30 (.read (map.base 2))

/-- A write followed in the next slot by a read of the same word. -/
def writeThenRead (s : Scenario) (number slot : Nat) (address : Word)
    (enables : ByteEnables) : Except Fault Scenario := do
  let s ← (s.withLimit 50).padIdle [2, 3] 30
  let s ← s.place number slot (.write address enables 0xABABABAB)
  s.place number (slot + 1) (.read address)

/-- A whole word is written and read back. -/
def wholeWrite (map : AddressMap) : Except Fault Scenario :=
  writeThenRead (Scenario.blank "simple_write") 2 10 (map.base 1) 0xF

/-- The low two lanes of a word are written, then the word is read back. -/
def laneWrite (map : AddressMap) : Except Fault Scenario :=
  writeThenRead (Scenario.blank "partial_write") 3 20 (map.base 3 + 2) 0x3

/-- All ports read the same word in their first slot, at one delay everywhere. -/
def contendedRead (map : AddressMap) (delay : Nat) : Except Fault Scenario := do
  let s := (Scenario.blank s!"concurrent_read/delay={delay}").withDelays (Vector.replicate 4 delay)
  let s ← (s.withLimit 50).padIdle [1, 2, 3] 10
  s.placeEach [1, 2, 3] 0 (.read (map.base 1))

/-- The iteration limit for random traffic: a fifth more than the sum of the delays and two
for every slot. The product has to fit 64 bits; the limit keeps its low 32. -/
def sweepLimit (delays : Table 4 Nat) (count : Nat) : Except Fault Nat :=
  let product := (delays.foldl (· + ·) 0 + 2) * count * 120
  if product ≤ 0xFFFFFFFFFFFFFFFF then .ok (BitVec.ofNat 32 (product / 100)).toNat
  else .error (.limitProduct product)

/-- Every combination of delays below three, the last peripheral's changing fastest. -/
def sweepDelays : List (Table 4 Nat) :=
  (List.range 3).flatMap fun a => (List.range 3).flatMap fun b =>
    (List.range 3).flatMap fun c => (List.range 3).map fun d => #v[a, b, c, d]

/-- One scenario of the sweep. -/
def sweepScenario (sequences : Table 3 (List Slot)) (delays : Table 4 Nat) (limit : Nat) :
    Scenario :=
  let combination := "/".intercalate (delays.toList.map toString)
  ⟨s!"variable_delay_fuzz/{combination}", delays, limit, sequences⟩

/-- The same random traffic under every combination of delays. -/
def delaySweep (map : AddressMap) (seed count : Nat) : Except Fault (List Scenario) := do
  let limits ← sweepDelays.mapM fun delays => sweepLimit delays count
  pure (List.zipWith (sweepScenario (Traffic.random map seed count)) sweepDelays limits)

/-- The names that can be asked for, in the order in which all of them run. -/
def names : List String :=
  ["simple_read", "simple_write", "partial_write", "concurrent_read", "variable_delay_fuzz"]

/-- The scenarios of a name. -/
def find (map : AddressMap) (seed count : Nat) (name : String) : Except Fault (List Scenario) :=
  match name with
  | "simple_read" => do pure [← staggeredReads map]
  | "simple_write" => do pure [← wholeWrite map]
  | "partial_write" => do pure [← laneWrite map]
  | "concurrent_read" => (List.range 3).mapM (contendedRead map)
  | "variable_delay_fuzz" => delaySweep map seed count
  | name => throw (.scenario name)

/-- The scenarios of several names in turn. The first unknown name is the fault. -/
def select (map : AddressMap) (seed count : Nat) (names : List String) :
    Except Fault (List Scenario) := do
  pure (← names.mapM (find map seed count)).flatten

end CrossbarBench.Catalogue
