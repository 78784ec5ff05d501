import CrossbarBench.Fault

/-! The three controller ports. They are numbered from one in everything a reader sees
and serviced in that order. -/

namespace CrossbarBench

abbrev Port := Fin 3

namespace Port

def one : Port := ⟨0, by decide⟩

def two : Port := ⟨1, by decide⟩

def three : Port := ⟨2, by decide⟩

/-- The ports in service order. -/
def all : List Port := [one, two, three]

def number (port : Port) : Nat := port.val + 1

def ofNumber (n : Nat) : Except Fault Port :=
  if h : 1 ≤ n ∧ n ≤ 3 then .ok ⟨n - 1, by omega⟩ else .error (.controllerPort n)

/-- The next port around. -/
def succ (port : Port) : Port := ⟨(port.val + 1) % 3, Nat.mod_lt _ (by decide)⟩

/-- The round-robin order after a port: the port itself comes last. -/
def following (port : Port) : List Port := [port.succ, port.succ.succ, port]

theorem mem_all (port : Port) : port ∈ all := by
  revert port; decide

theorem eq_one_or_two_or_three (port : Port) : port = one ∨ port = two ∨ port = three := by
  revert port; decide

theorem mem_following (last port : Port) : port ∈ following last := by
  revert last port; decide

theorem ofNumber_number (port : Port) : ofNumber port.number = .ok port :=
  dif_pos ⟨Nat.le_add_left 1 port.val, port.isLt⟩

theorem ofNumber_eq_error_iff (n : Nat) :
    ofNumber n = .error (.controllerPort n) ↔ n = 0 ∨ 3 < n := by
  unfold ofNumber
  split
  · simp; omega
  · simp; omega

end Port

end CrossbarBench
