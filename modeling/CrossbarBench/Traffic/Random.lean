import CrossbarBench.Bus.Address
import CrossbarBench.Bus.Port
import CrossbarBench.Table
import CrossbarBench.Traffic.Keystream
import CrossbarBench.Traffic.Slot

/-! Random traffic. Slots are drawn in rounds, one slot for each port in turn, from any source
of words. How many words a slot takes from the source depends on what is drawn: whether it is
idle, where it goes, and whether it writes. Port 1 only reads, and only the upper two
peripherals are written. -/

namespace CrossbarBench.Traffic

/-- A source of words: from each of its states, the next word and the state after it. -/
abbrev Source (σ : Type) := σ → Word × σ

variable {σ : Type}

/-- A coin: the top bit of the next word. -/
def Source.flip (next : Source σ) (s : σ) : Bool × σ :=
  let (word, s) := next s
  (word.msb, s)

/-- A read or a write to an address that has been drawn. -/
def drawRequest (next : Source σ) (map : AddressMap) (port : Port) (address : Word) (s : σ) :
    Request × σ :=
  if port ≠ Port.one ∧ 2 ≤ (map.peripheral address).val then
    let (isWrite, s) := next.flip s
    if isWrite then
      let (enables, s) := next s
      let (data, s) := next s
      (Request.write address ((enables >>> 28).setWidth 8) data, s)
    else (Request.read address, s)
  else (Request.read address, s)

/-- The next slot of a port. -/
def drawSlot (next : Source σ) (map : AddressMap) (port : Port) (s : σ) : Slot × σ :=
  let (busy, s) := next.flip s
  if busy then
    let (word, s) := next s
    let (request, s) := drawRequest next map port (map.mask word) s
    (some request, s)
  else (none, s)

/-- One slot for each port. -/
def drawRound (next : Source σ) (map : AddressMap) (s : σ) : Table 3 Slot × σ :=
  let (a, s) := drawSlot next map Port.one s
  let (b, s) := drawSlot next map Port.two s
  let (c, s) := drawSlot next map Port.three s
  (#v[a, b, c], s)

def drawRounds (next : Source σ) (map : AddressMap) : Nat → σ → List (Table 3 Slot)
  | 0, _ => []
  | n + 1, s =>
    let (round, s) := drawRound next map s
    round :: drawRounds next map n s

@[simp] theorem length_drawRounds (next : Source σ) (map : AddressMap) (n : Nat) (s : σ) :
    (drawRounds next map n s).length = n := by
  induction n generalizing s with
  | zero => rfl
  | succ n ih => simp [drawRounds, ih]

/-- Each port's slots of the first rounds that are drawn. -/
def draw (next : Source σ) (map : AddressMap) (count : Nat) (s : σ) : Table 3 (List Slot) :=
  let rounds := drawRounds next map count s
  Vector.ofFn fun port => rounds.map fun round => round.get port

/-- The traffic of a seed: `count` slots for each port. -/
def random (map : AddressMap) (seed count : Nat) : Table 3 (List Slot) :=
  draw Keystream.next map count (Keystream.ofSeed seed)

end CrossbarBench.Traffic
