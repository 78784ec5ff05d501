import CrossbarBench.Bus.Address

/-! The shadow memory: what each word of each peripheral should hold, as far as the
completed writes tell. -/

namespace CrossbarBench

structure Shadow where
  map : AddressMap
  words : Table 4 (Table 4 Word)
  deriving DecidableEq

namespace Shadow

def fresh (map : AddressMap) : Shadow := ⟨map, Vector.replicate 4 Peripheral.resetPattern⟩

/-- The word that a read of the address should return. -/
def expected (s : Shadow) (address : Word) : Word :=
  (s.words.get (s.map.peripheral address)).get (AddressMap.offset address)

/-- The word after a write, and the memory that holds it. -/
def write (s : Shadow) (address : Word) (enables : ByteEnables) (data : Word) : Word × Shadow :=
  let p := s.map.peripheral address
  let o := AddressMap.offset address
  let word := Word.mergeLanes ((s.words.get p).get o) data enables
  (word, { s with words := s.words.modify p (·.put o word) })

/-- A word by peripheral and offset; offsets repeat every four. -/
def word (s : Shadow) (peripheral offset : Nat) : Except Fault Word :=
  if h : peripheral < 4 then .ok ((s.words.get ⟨peripheral, h⟩).get (Offset.wrap offset))
  else .error (.peripheral peripheral)

theorem expected_congr {s : Shadow} {a a' : Word} (h : s.map.decode a = s.map.decode a') :
    s.expected a = s.expected a' := by
  obtain ⟨hp, ho⟩ := Prod.mk.inj h
  rw [expected, expected, hp, ho]

theorem get_words_write (s : Shadow) (address : Word) (enables : ByteEnables) (data : Word)
    (p : Peripheral) (o : Offset) :
    ((s.write address enables data).2.words.get p).get o =
      if s.map.decode address = (p, o) then (s.write address enables data).1
      else (s.words.get p).get o := by
  simp only [write, Table.get_modify, AddressMap.decode, Prod.mk.injEq]
  by_cases hp : s.map.peripheral address = p
  · subst hp
    by_cases ho : AddressMap.offset address = o
    · subst ho; simp
    · simp [ho, Table.get_put]
  · simp [hp]

theorem expected_write (s : Shadow) (address : Word) (enables : ByteEnables) (data a : Word) :
    (s.write address enables data).2.expected a =
      if s.map.decode address = s.map.decode a then (s.write address enables data).1
      else s.expected a :=
  get_words_write s address enables data (s.map.peripheral a) (AddressMap.offset a)

end Shadow

end CrossbarBench
