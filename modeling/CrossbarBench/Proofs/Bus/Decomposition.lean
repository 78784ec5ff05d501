import Mathlib.Tactic.Positivity
import CrossbarBench.Bus.Address

/-! Addresses taken apart. What the bus carries of an address is the base of its peripheral and a
rest below the size of one, and the offset counts from the low end of that. So four bits of an
address decide where it goes. None of the arithmetic that this takes on words ever leaves a word,
on a bus of any width that can be decoded. -/

namespace CrossbarBench

/-! ### Checked arithmetic -/

namespace Word

/-- A sum, nothing if it leaves the word. -/
def add? (v w : Word) : Option Word := if v.toNat + w.toNat < 2 ^ 32 then some (v + w) else none

/-- A difference, nothing if it falls below zero. -/
def sub? (v w : Word) : Option Word := if w.toNat ≤ v.toNat then some (v - w) else none

/-- A word moved up, nothing if that is by a whole word or bits get lost. -/
def shiftLeft? (w : Word) (n : Nat) : Option Word :=
  if n < 32 ∧ w.toNat * 2 ^ n < 2 ^ 32 then some (w <<< n) else none

/-- A word moved down, nothing if that is by a whole word. -/
def shiftRight? (w : Word) (n : Nat) : Option Word := if n < 32 then some (w >>> n) else none

theorem add?_eq_some_iff {u v w : Word} : add? u v = some w ↔ u.toNat + v.toNat = w.toNat := by
  rw [add?, Option.ite_none_right_eq_some, Option.some.injEq]
  constructor
  · rintro ⟨h, rfl⟩
    rw [BitVec.toNat_add, Nat.mod_eq_of_lt h]
  · intro h
    have hlt : u.toNat + v.toNat < 2 ^ 32 := h ▸ w.isLt
    refine ⟨hlt, BitVec.eq_of_toNat_eq ?_⟩
    rw [BitVec.toNat_add, Nat.mod_eq_of_lt hlt, h]

theorem toNat_shiftLeft_of_lt {w : Word} {n : Nat} (h : w.toNat * 2 ^ n < 2 ^ 32) :
    (w <<< n).toNat = w.toNat * 2 ^ n := by
  rw [BitVec.toNat_shiftLeft, Nat.shiftLeft_eq, Nat.mod_eq_of_lt h]

theorem toNat_one_shiftLeft {n : Nat} (h : n < 32) : ((1 : Word) <<< n).toNat = 2 ^ n := by
  have hone : (1 : Word).toNat * 2 ^ n = 2 ^ n := one_mul _
  have hlt : (1 : Word).toNat * 2 ^ n < 2 ^ 32 := by
    rw [hone]
    exact Nat.pow_lt_pow_right (by decide) h
  rw [toNat_shiftLeft_of_lt hlt, hone]

theorem one_le_one_shiftLeft {n : Nat} (h : n < 32) :
    (1 : Word).toNat ≤ ((1 : Word) <<< n).toNat := by
  rw [toNat_one_shiftLeft h]
  exact Nat.one_le_two_pow

/-- Less one, a power of two is a mask of ones. -/
theorem toNat_and_ones {n : Nat} (h : n < 32) (w : Word) :
    (w &&& ((1 : Word) <<< n - 1)).toNat = w.toNat % 2 ^ n := by
  have hones : ((1 : Word) <<< n - 1).toNat = 2 ^ n - 1 := by
    rw [BitVec.toNat_sub_of_le (one_le_one_shiftLeft h), toNat_one_shiftLeft h]
    rfl
  rw [BitVec.toNat_and, hones, Nat.and_two_pow_sub_one_eq_mod]

theorem toNat_and_three (w : Word) : (w &&& 3).toNat = w.toNat % 4 :=
  Nat.and_two_pow_sub_one_eq_mod w.toNat 2

theorem mod_four_eq_bits (n : Nat) :
    n % 4 = 2 * (n.testBit 1).toNat + (n.testBit 0).toNat := by
  rw [Nat.toNat_testBit, Nat.toNat_testBit]
  omega

theorem toNat_ofNat_mod_four (p : Nat) : (BitVec.ofNat 32 (p % 4)).toNat = p % 4 := by
  rw [BitVec.toNat_ofNat]
  omega

/-- A number of two bits tells both. -/
theorem bits_inj {p q p' q' : Bool} :
    2 * p.toNat + q.toNat = 2 * p'.toNat + q'.toNat ↔ p = p' ∧ q = q' := by
  revert p q p' q'
  decide

end Word

namespace AddressMap

variable (map : AddressMap)

/-- The distance of the select bits from the low end, nothing if the bus is too narrow. -/
def selectShift? : Option Nat := if 2 ≤ map.width then some (map.width - 2) else none

/-- The part of an address that the bus carries, by checked arithmetic. -/
def mask? (address : Word) : Option Word :=
  if 32 ≤ map.width then some address
  else do
    let beyond ← Word.shiftLeft? 1 map.width
    let ones ← Word.sub? beyond 1
    pure (address &&& ones)

/-- The number of a peripheral, by checked arithmetic. -/
def peripheral? (address : Word) : Option Word := do
  let carried ← map.mask? address
  let shift ← map.selectShift?
  let selected ← Word.shiftRight? carried shift
  pure (selected &&& 3)

/-- The first address of a peripheral, by checked arithmetic. -/
def base? (peripheral : Nat) : Option Word := do
  let shift ← map.selectShift?
  Word.shiftLeft? (BitVec.ofNat 32 peripheral &&& 3) shift

/-! ### Parts as numbers -/

/-- A peripheral takes a quarter of what the bus can address. -/
theorem size_mul_four : 2 ^ (map.width - 2) * 4 = 2 ^ map.width := by
  have h := map.two_le_width
  rw [show 4 = 2 ^ 2 from rfl, ← pow_add, Nat.sub_add_cancel h]

theorem two_pow_width_le : 2 ^ map.width ≤ 2 ^ 32 :=
  Nat.pow_le_pow_right (by decide) map.width_le

theorem toNat_mask (a : Word) : (map.mask a).toNat = a.toNat % 2 ^ map.width := by
  have hlt : a.toNat % 2 ^ map.width < 2 ^ 32 :=
    (Nat.mod_lt _ (by positivity)).trans_le map.two_pow_width_le
  rw [mask, Word.truncate, BitVec.toNat_setWidth, BitVec.toNat_setWidth, Nat.mod_eq_of_lt hlt]

theorem mask_lt (a : Word) : (map.mask a).toNat < 2 ^ map.width := by
  rw [toNat_mask]
  exact Nat.mod_lt _ (by positivity)

theorem val_peripheral (a : Word) :
    (map.peripheral a).val = (map.mask a).toNat / 2 ^ (map.width - 2) := by
  have hval : (map.peripheral a).val = (map.mask a >>> (map.width - 2)).toNat :=
    Nat.mod_eq_of_lt (map.select_lt a)
  rw [hval, BitVec.toNat_ushiftRight, Nat.shiftRight_eq_div_pow]

theorem val_offset (a : Word) : (offset a).val = a.toNat % 4 := rfl

theorem base_lt (p : Nat) : p % 4 * 2 ^ (map.width - 2) < 2 ^ map.width := by
  have hp : p % 4 < 4 := Nat.mod_lt _ (by decide)
  rw [← size_mul_four, mul_comm _ 4]
  exact Nat.mul_lt_mul_of_pos_right hp (by positivity)

theorem toNat_base (p : Nat) : (map.base p).toNat = p % 4 * 2 ^ (map.width - 2) := by
  have hlt := (map.base_lt p).trans_le map.two_pow_width_le
  rw [← Word.toNat_ofNat_mod_four] at hlt
  rw [base, Word.toNat_shiftLeft_of_lt hlt, Word.toNat_ofNat_mod_four]

/-- A peripheral ends where the next one begins, the last one at the end of the bus. -/
theorem toNat_base_add_lt (p : Nat) {r : Nat} (hr : r < 2 ^ (map.width - 2)) :
    (map.base p).toNat + r < 2 ^ map.width := by
  have hp : p % 4 + 1 ≤ 4 := Nat.mod_lt p (by decide)
  have hend := Nat.mul_le_mul_right (2 ^ (map.width - 2)) hp
  rw [Nat.succ_mul] at hend
  rw [toNat_base, ← size_mul_four]
  omega

theorem add?_base (p : Nat) {r : Word} (hr : r.toNat < 2 ^ (map.width - 2)) :
    Word.add? (map.base p) r = some (map.base p + r) :=
  if_pos ((map.toNat_base_add_lt p hr).trans_le map.two_pow_width_le)

theorem toNat_base_add (p : Nat) {r : Word} (hr : r.toNat < 2 ^ (map.width - 2)) :
    (map.base p + r).toNat = p % 4 * 2 ^ (map.width - 2) + r.toNat := by
  rw [← Word.add?_eq_some_iff.mp (map.add?_base p hr), toNat_base]

/-- What the bus carries is one rest above the base of its peripheral. -/
theorem existsUnique_rest (a : Word) : ∃! r : Word, r.toNat < 2 ^ (map.width - 2) ∧
    Word.add? (map.base (map.peripheral a).val) r = some (map.mask a) := by
  have hp : (map.peripheral a).val % 4 = (map.mask a).toNat / 2 ^ (map.width - 2) := by
    rw [Nat.mod_eq_of_lt (map.peripheral a).isLt, val_peripheral]
  have hsplit := Nat.div_add_mod' (map.mask a).toNat (2 ^ (map.width - 2))
  have hlt : (map.mask a).toNat % 2 ^ (map.width - 2) < 2 ^ (map.width - 2) :=
    Nat.mod_lt _ (by positivity)
  have hr : (BitVec.ofNat 32 ((map.mask a).toNat % 2 ^ (map.width - 2))).toNat =
      (map.mask a).toNat % 2 ^ (map.width - 2) := by
    rw [BitVec.toNat_ofNat]
    exact Nat.mod_eq_of_lt ((Nat.mod_le _ _).trans_lt (map.mask a).isLt)
  refine ⟨BitVec.ofNat 32 ((map.mask a).toNat % 2 ^ (map.width - 2)), ⟨?_, ?_⟩, ?_⟩
  · rwa [hr]
  · rw [Word.add?_eq_some_iff, toNat_base, hp, hr, hsplit]
  · rintro r ⟨-, h⟩
    rw [Word.add?_eq_some_iff, toNat_base, hp] at h
    apply BitVec.eq_of_toNat_eq
    rw [hr]
    omega

/-- Where a base and a rest are decoded to, if the select bits are above those of the offset. -/
theorem decode_base_add (hw : 4 ≤ map.width) (p : Nat) {r : Word}
    (hr : r.toNat < 2 ^ (map.width - 2)) :
    (map.decode (map.base p + r)).1.val = p % 4 ∧
      (map.decode (map.base p + r)).2.val = r.toNat % 4 := by
  have hsum := map.toNat_base_add p hr
  constructor
  · have hlt : (map.base p + r).toNat < 2 ^ map.width := by
      rw [hsum, ← toNat_base]
      exact map.toNat_base_add_lt p hr
    change (map.peripheral (map.base p + r)).val = p % 4
    rw [val_peripheral, toNat_mask, Nat.mod_eq_of_lt hlt, hsum, add_comm,
      Nat.add_mul_div_right _ _ (by positivity), Nat.div_eq_of_lt hr, zero_add]
  · have hdvd : 4 ∣ p % 4 * 2 ^ (map.width - 2) :=
      Dvd.dvd.mul_left (pow_dvd_pow 2 (show 2 ≤ map.width - 2 by omega)) _
    change (map.base p + r).toNat % 4 = r.toNat % 4
    rw [hsum]
    omega

/-! ### Bits -/

/-- The select bits are the top two of the bus. -/
theorem val_peripheral_eq_bits (a : Word) : (map.peripheral a).val =
    2 * (a.getLsbD (map.width - 1)).toNat + (a.getLsbD (map.width - 2)).toNat := by
  have h := map.two_le_width
  rw [val_peripheral, toNat_mask, ← size_mul_four, Nat.mod_mul_right_div_self,
    Word.mod_four_eq_bits, Nat.testBit_div_two_pow, Nat.testBit_div_two_pow, BitVec.testBit_toNat,
    BitVec.testBit_toNat, show 1 + (map.width - 2) = map.width - 1 by omega, zero_add]

theorem val_offset_eq_bits (a : Word) :
    (offset a).val = 2 * (a.getLsbD 1).toNat + (a.getLsbD 0).toNat := by
  rw [val_offset, Word.mod_four_eq_bits, BitVec.testBit_toNat, BitVec.testBit_toNat]

theorem decode_eq_iff (a b : Word) : map.decode a = map.decode b ↔
    (a.getLsbD (map.width - 1) = b.getLsbD (map.width - 1) ∧
      a.getLsbD (map.width - 2) = b.getLsbD (map.width - 2)) ∧
    a.getLsbD 1 = b.getLsbD 1 ∧ a.getLsbD 0 = b.getLsbD 0 := by
  rw [decode, decode, Prod.mk.injEq, Fin.ext_iff, Fin.ext_iff, val_peripheral_eq_bits,
    val_peripheral_eq_bits, val_offset_eq_bits, val_offset_eq_bits, Word.bits_inj, Word.bits_inj]

/-! ### No overflow -/

theorem selectShift?_eq : map.selectShift? = some (map.width - 2) := if_pos map.two_le_width

/-- The shortcut on the widest bus is right to leave the address alone. -/
theorem mask?_eq (a : Word) : map.mask? a = some (map.mask a) := by
  rw [mask?]
  by_cases hw : 32 ≤ map.width
  · have hmask : map.mask a = a := by
      apply BitVec.eq_of_toNat_eq
      rw [toNat_mask, Nat.le_antisymm map.width_le hw]
      exact Nat.mod_eq_of_lt a.isLt
    rw [if_pos hw, hmask]
  · have hlt : map.width < 32 := Nat.not_le.mp hw
    have hbeyond : Word.shiftLeft? 1 map.width = some ((1 : Word) <<< map.width) := by
      refine if_pos ⟨hlt, ?_⟩
      rw [show (1 : Word).toNat = 1 from rfl, one_mul]
      exact Nat.pow_lt_pow_right (by decide) hlt
    have hones : Word.sub? ((1 : Word) <<< map.width) 1 = some ((1 : Word) <<< map.width - 1) :=
      if_pos (Word.one_le_one_shiftLeft hlt)
    have hmask : a &&& ((1 : Word) <<< map.width - 1) = map.mask a := by
      apply BitVec.eq_of_toNat_eq
      rw [Word.toNat_and_ones hlt, toNat_mask]
    rw [if_neg hw, hbeyond, ← hmask]
    exact congrArg (Option.bind · _) hones

/-- The select bits are all that is left of what the bus carries, so the last mask takes nothing
away. -/
theorem peripheral?_eq (a : Word) :
    (map.peripheral? a).map BitVec.toNat = some (map.peripheral a).val := by
  have hlt : map.width - 2 < 32 := by
    have h := map.width_le
    omega
  have hshift : Word.shiftRight? (map.mask a) (map.width - 2) =
      some (map.mask a >>> (map.width - 2)) := if_pos hlt
  have hval : (map.mask a >>> (map.width - 2) &&& 3).toNat = (map.peripheral a).val :=
    Word.toNat_and_three _
  rw [← hval, peripheral?, mask?_eq, selectShift?_eq]
  exact congrArg (Option.map BitVec.toNat <| Option.bind · _) hshift

theorem base?_eq (p : Nat) : map.base? p = some (map.base p) := by
  have hp : BitVec.ofNat 32 p &&& 3 = BitVec.ofNat 32 (p % 4) := by
    apply BitVec.eq_of_toNat_eq
    rw [Word.toNat_and_three, BitVec.toNat_ofNat, BitVec.toNat_ofNat]
    omega
  rw [base?, selectShift?_eq, hp]
  refine if_pos ⟨?_, ?_⟩
  · have h := map.width_le
    omega
  · rw [Word.toNat_ofNat_mod_four]
    exact (map.base_lt p).trans_le map.two_pow_width_le

/-! ### All together -/

/-- On every bus that can be decoded. Only what the bus carries of an address is decoded, and that
is the base of its peripheral and one rest below the size of a peripheral. A base and such a rest
never add up beyond a word, and where the select bits stand above those of the offset they are
decoded to that peripheral and to the rest modulo four. Addresses are decoded alike if they agree
in the top two bits of the bus and in the lowest two. Masking, selecting and the bases themselves
give by checked arithmetic what they give without. -/
theorem parts_of_address :
    (∀ a, map.decode (map.mask a) = map.decode a) ∧
    (∀ a, ∃! r : Word, r.toNat < 2 ^ (map.width - 2) ∧
      Word.add? (map.base (map.peripheral a).val) r = some (map.mask a)) ∧
    (∀ (p : Nat) (r : Word), r.toNat < 2 ^ (map.width - 2) →
      Word.add? (map.base p) r = some (map.base p + r) ∧
      (4 ≤ map.width → (map.decode (map.base p + r)).1.val = p % 4 ∧
        (map.decode (map.base p + r)).2.val = r.toNat % 4)) ∧
    (∀ a b, map.decode a = map.decode b ↔
      (a.getLsbD (map.width - 1) = b.getLsbD (map.width - 1) ∧
        a.getLsbD (map.width - 2) = b.getLsbD (map.width - 2)) ∧
      a.getLsbD 1 = b.getLsbD 1 ∧ a.getLsbD 0 = b.getLsbD 0) ∧
    ∀ (a : Word) (p : Nat), map.mask? a = some (map.mask a) ∧
      (map.peripheral? a).map BitVec.toNat = some (map.peripheral a).val ∧
      map.base? p = some (map.base p) :=
  ⟨map.decode_mask, map.existsUnique_rest,
    fun p _ hr => ⟨map.add?_base p hr, fun hw => map.decode_base_add hw p hr⟩, map.decode_eq_iff,
    fun a p => ⟨map.mask?_eq a, map.peripheral?_eq a, map.base?_eq p⟩⟩

/-- The last address of the narrowest bus on which the select bits stand above those of the
offset. -/
theorem parts_of_address_of_narrow :
    let map : AddressMap := ⟨4, by decide, by decide⟩
    let r : Word := 3
    (r.toNat < 2 ^ (map.width - 2) ∧ 4 ≤ map.width) ∧
      Word.add? (map.base 7) r = some 15 ∧ (map.decode 15).1.val = 3 ∧ (map.decode 15).2.val = 3 :=
  have hr : (3 : Word).toNat < 2 ^ (4 - 2) := by decide
  have hw : 4 ≤ 4 := by decide
  have h := (parts_of_address ⟨4, by decide, by decide⟩).2.2.1 7 3 hr
  ⟨⟨hr, hw⟩, h.1, h.2 hw⟩

end AddressMap

end CrossbarBench
