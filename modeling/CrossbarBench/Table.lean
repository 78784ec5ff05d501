/-! Tables with one entry for each port, or one for each peripheral or word of it. -/

namespace CrossbarBench

abbrev Table (n : Nat) (α : Type) := Vector α n

namespace Table

variable {n : Nat} {α β : Type}

def put (t : Table n α) (i : Fin n) (a : α) : Table n α := t.set i.val a i.isLt

/-- Changes one entry. -/
def modify (t : Table n α) (i : Fin n) (f : α → α) : Table n α := t.put i (f (t.get i))

theorem get_eq_getElem (t : Table n α) (i : Fin n) : t.get i = t[i.val] := rfl

theorem ext_get {t u : Table n α} (h : ∀ i, t.get i = u.get i) : t = u :=
  Vector.ext fun i hi => h ⟨i, hi⟩

@[simp] theorem get_ofFn (f : Fin n → α) (i : Fin n) : (Vector.ofFn f).get i = f i := by
  simp [get_eq_getElem]

@[simp] theorem get_replicate (a : α) (i : Fin n) : (Vector.replicate n a).get i = a := by
  simp [get_eq_getElem]

@[simp] theorem get_map (f : α → β) (t : Table n α) (i : Fin n) :
    (Vector.map f t).get i = f (t.get i) := by
  simp [get_eq_getElem]

theorem get_put (t : Table n α) (i j : Fin n) (a : α) :
    (t.put i a).get j = if i = j then a else t.get j := by
  simp [put, get_eq_getElem, Vector.getElem_set, Fin.ext_iff]

@[simp] theorem get_put_self (t : Table n α) (i : Fin n) (a : α) : (t.put i a).get i = a := by
  simp [get_put]

theorem get_modify (t : Table n α) (i j : Fin n) (f : α → α) :
    (t.modify i f).get j = if i = j then f (t.get j) else t.get j := by
  rw [modify, get_put]
  split <;> simp_all

end Table

end CrossbarBench
