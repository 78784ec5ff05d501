import CrossbarBench.Bus.Address
import CrossbarBench.Bus.Port
import CrossbarBench.Bus.Signal

/-! One peripheral of the crossbar: a memory of four words that serves one controller at
a time. On a clock edge it first serves the controller it is granted to, then, if it is
free, grants itself to the next requesting controller in round-robin order. A controller
served on an edge is passed over on that edge. -/

namespace CrossbarBench

/-- The input registers of a controller port. -/
structure Inputs where
  request : Bool
  address : Word
  writeEnable : Bool
  enables : ByteEnables
  data : Word
  deriving DecidableEq

namespace Inputs

def idle : Inputs := ⟨false, 0, false, 0, 0⟩

/-- The peripheral and offset that the address registers select. -/
def target (inputs : Inputs) : Peripheral × Offset := AddressMap.standard.decode inputs.address

/-- The input registers after a value is driven onto a signal; outputs cannot be driven. -/
def latch (inputs : Inputs) (value : Word) : Signal → Inputs
  | .request => { inputs with request := value != 0 }
  | .address => { inputs with address := AddressMap.standard.mask value }
  | .writeEnable => { inputs with writeEnable := value != 0 }
  | .byteEnables => { inputs with enables := (value &&& 0xF).setWidth 8 }
  | .writeData => { inputs with data := value }
  | .ready | .readData => inputs

end Inputs

structure Memory where
  words : Table 4 Word
  /-- Edges that a granted request waits for its response. -/
  delay : Nat
  grant : Option Port
  /-- Edges waited since the grant. -/
  waited : Nat
  lastGrant : Port
  deriving DecidableEq

namespace Memory

def initial : Memory where
  words := Peripheral.resetPattern
  delay := 0
  grant := none
  waited := 0
  lastGrant := Port.three

/-- Reset keeps the delay. -/
def reset (m : Memory) : Memory := { initial with delay := m.delay }

/-- The memory is granted to the controller and the delay is over. -/
def answers (m : Memory) (port : Port) : Bool := m.grant == some port && m.delay ≤ m.waited

/-- The words after the transfer that a controller asks for. -/
def transfer (m : Memory) (inputs : Inputs) : Table 4 Word :=
  if inputs.writeEnable then
    let o := AddressMap.offset inputs.address
    m.words.modify o (Word.mergeLanes · inputs.data inputs.enables)
  else m.words

/-- Serves the granted controller: a withdrawn request loses the grant, an answered one is
transferred and released, any other waits. Returns the controller whose transfer took place. -/
def serve (m : Memory) (controllers : Table 3 Inputs) : Option Port × Memory :=
  match m.grant with
  | none => (none, m)
  | some c =>
    if !(controllers.get c).request then (none, { m with grant := none })
    else if m.delay ≤ m.waited then
      (some c, { m with words := m.transfer (controllers.get c), grant := none })
    else (none, { m with waited := m.waited + 1 })

/-- Whether a controller requests the peripheral and was not served on this edge. -/
def eligible (p : Peripheral) (controllers : Table 3 Inputs) (served : Option Port) (c : Port) :
    Bool :=
  served != some c && (controllers.get c).request && (controllers.get c).target.1 == p

/-- Grants a free memory to the next eligible controller. -/
def arbitrate (m : Memory) (p : Peripheral) (controllers : Table 3 Inputs)
    (served : Option Port) : Memory :=
  if m.grant.isSome then m
  else match (Port.following m.lastGrant).find? (eligible p controllers served) with
    | none => m
    | some c => { m with grant := some c, waited := 0, lastGrant := c }

/-- A clock edge out of reset. -/
def edge (m : Memory) (p : Peripheral) (controllers : Table 3 Inputs) : Memory :=
  let (served, m) := m.serve controllers
  m.arbitrate p controllers served

theorem delay_serve (m : Memory) (controllers : Table 3 Inputs) :
    (m.serve controllers).2.delay = m.delay := by
  unfold serve
  repeat' split
  all_goals rfl

theorem delay_arbitrate (m : Memory) (p : Peripheral) (controllers : Table 3 Inputs)
    (served : Option Port) : (m.arbitrate p controllers served).delay = m.delay := by
  unfold arbitrate
  repeat' split
  all_goals rfl

theorem words_arbitrate (m : Memory) (p : Peripheral) (controllers : Table 3 Inputs)
    (served : Option Port) : (m.arbitrate p controllers served).words = m.words := by
  unfold arbitrate
  repeat' split
  all_goals rfl

theorem delay_edge (m : Memory) (p : Peripheral) (controllers : Table 3 Inputs) :
    (m.edge p controllers).delay = m.delay :=
  (delay_arbitrate _ p controllers _).trans (delay_serve m controllers)

end Memory

end CrossbarBench
