import CrossbarBench.Bus.Word
import CrossbarBench.Fault
import CrossbarBench.Table

/-! The address space. The top two bits of the bus select one of four peripherals, the
low two bits one of its four words, so the words of a peripheral repeat throughout its
range. -/

namespace CrossbarBench

abbrev Peripheral := Fin 4

/-- The place of a word inside its peripheral. -/
abbrev Offset := Fin 4

/-- The words of every peripheral right after reset. -/
def Peripheral.resetPattern : Table 4 Word := #v[0xDEADBEEF, 0xF1BEF1BE, 0x1234ABCD, 0xFFFFFFFF]

/-- An offset counted on past the end of a peripheral, where its words repeat. -/
def Offset.wrap (n : Nat) : Offset := ⟨n % 4, Nat.mod_lt n (by decide)⟩

/-- An address bus with room for the two select bits. -/
structure AddressMap where
  width : Nat
  two_le_width : 2 ≤ width
  width_le : width ≤ 32
  deriving DecidableEq

namespace AddressMap

def ofWidth (width : Nat) : Except Fault AddressMap :=
  if h : 2 ≤ width ∧ width ≤ 32 then .ok ⟨width, h.1, h.2⟩ else .error (.addressWidth width)

/-- The 16-bit bus of the crossbar. -/
def standard : AddressMap := ⟨16, by decide, by decide⟩

/-- The part of an address that the bus carries. -/
def mask (map : AddressMap) (address : Word) : Word := address.truncate map.width

def peripheral (map : AddressMap) (address : Word) : Peripheral :=
  ⟨(map.mask address >>> (map.width - 2)).toNat % 4, Nat.mod_lt _ (by decide)⟩

/-- The offset counts from the low end of the address, whatever the bus carries. -/
def offset (address : Word) : Offset := Offset.wrap address.toNat

def decode (map : AddressMap) (address : Word) : Peripheral × Offset :=
  (map.peripheral address, offset address)

/-- The first address of a peripheral, whose number counts modulo four. -/
def base (map : AddressMap) (peripheral : Nat) : Word :=
  BitVec.ofNat 32 (peripheral % 4) <<< (map.width - 2)

theorem mask_mask (map : AddressMap) (address : Word) :
    map.mask (map.mask address) = map.mask address :=
  Word.truncate_truncate map.width address

/-- What the bus carries of an address is enough to decode it. -/
theorem decode_mask (map : AddressMap) (address : Word) :
    map.decode (map.mask address) = map.decode address := by
  have hp : map.peripheral (map.mask address) = map.peripheral address := by
    simp only [peripheral, mask_mask]
  have ho : offset (map.mask address) = offset address := by
    have hdvd : 4 ∣ 2 ^ map.width := Nat.pow_dvd_pow 2 map.two_le_width
    have hdvd' : 4 ∣ 2 ^ 32 := by decide
    apply Fin.ext
    change (map.mask address).toNat % 4 = address.toNat % 4
    rw [mask, Word.truncate, BitVec.toNat_setWidth, BitVec.toNat_setWidth,
      Nat.mod_mod_of_dvd _ hdvd', Nat.mod_mod_of_dvd _ hdvd]
  rw [decode, decode, hp, ho]

/-- What is above the select bits of the bus is zero, so a peripheral is never wrapped around. -/
theorem select_lt (map : AddressMap) (address : Word) :
    (map.mask address >>> (map.width - 2)).toNat < 4 := by
  have h := map.two_le_width
  have hw : 2 ^ (map.width - 2) * 4 = 2 ^ map.width := by
    rw [show map.width = map.width - 2 + 2 by omega, Nat.pow_add, Nat.add_sub_cancel]
  have hm : (map.mask address).toNat ≤ (address.setWidth map.width).toNat := by
    rw [mask, Word.truncate, BitVec.toNat_setWidth]
    exact Nat.mod_le _ _
  rw [BitVec.toNat_ushiftRight, Nat.shiftRight_eq_div_pow]
  apply Nat.div_lt_of_lt_mul
  rw [hw]
  exact Nat.lt_of_le_of_lt hm (address.setWidth map.width).isLt

theorem ofWidth_width (map : AddressMap) : ofWidth map.width = .ok map :=
  dif_pos ⟨map.two_le_width, map.width_le⟩

theorem ofWidth_eq_error_iff (width : Nat) :
    ofWidth width = .error (.addressWidth width) ↔ width < 2 ∨ 32 < width := by
  unfold ofWidth
  split
  · simp; omega
  · simp; omega

end AddressMap

end CrossbarBench
