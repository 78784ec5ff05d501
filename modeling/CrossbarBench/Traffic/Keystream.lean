import CrossbarBench.Bus.Word

/-! A reproducible source of random words: the key stream of the ChaCha block function
with twelve rounds, under a key spread from a 64-bit seed and with a block counter from
zero. A stream holds the block in use and the words already drawn from it. -/

namespace CrossbarBench

structure Keystream where
  key : Vector Word 8
  /-- The number of the block after the one in use. -/
  counter : BitVec 64
  block : Vector Word 16
  /-- Words drawn from the block in use. -/
  drawn : Fin 16

namespace Keystream

/-! ### The block function -/

/-- Mixes the words at four places of a block. -/
def quarterRound (v : Vector Word 16) (i j k l : Fin 16) : Vector Word 16 :=
  let a := v[i] + v[j]
  let d := (v[l] ^^^ a).rotateLeft 16
  let c := v[k] + d
  let b := (v[j] ^^^ c).rotateLeft 12
  let a := a + b
  let d := (d ^^^ a).rotateLeft 8
  let c := c + d
  let b := (b ^^^ c).rotateLeft 7
  (((v.set i a).set j b).set k c).set l d

/-- A round over the columns and one over the diagonals. -/
def doubleRound (v : Vector Word 16) : Vector Word 16 :=
  let v := quarterRound v 0 4 8 12
  let v := quarterRound v 1 5 9 13
  let v := quarterRound v 2 6 10 14
  let v := quarterRound v 3 7 11 15
  let v := quarterRound v 0 5 10 15
  let v := quarterRound v 1 6 11 12
  let v := quarterRound v 2 7 8 13
  quarterRound v 3 4 9 14

def rounds : Nat → Vector Word 16 → Vector Word 16
  | 0, v => v
  | n + 1, v => rounds n (doubleRound v)

/-- The words of "expand 32-byte k". -/
def constants : Vector Word 4 := #v[0x61707865, 0x3320646e, 0x79622d32, 0x6b206574]

/-- Constants, key, counter with its low word first, and a zero nonce. -/
def input (key : Vector Word 8) (counter : BitVec 64) : Vector Word 16 :=
  constants ++ key ++ #v[counter.setWidth 32, counter.extractLsb' 32 32, 0, 0]

/-- The block of a counter value: six double rounds, added to their input. -/
def blockAt (key : Vector Word 8) (counter : BitVec 64) : Vector Word 16 :=
  let v := input key counter
  (rounds 6 v).zipWith (· + ·) v

/-! ### The stream -/

/-- One step of the linear congruence that spreads a seed. -/
def spread (state : BitVec 64) : BitVec 64 := state * 6364136223846793005 + 11634580027462260723

/-- A word from a state: its upper bits folded together, rotated by its top five bits. -/
def permute (state : BitVec 64) : Word :=
  let folded := ((state >>> 18) ^^^ state) >>> 27
  (folded.setWidth 32).rotateRight (state >>> 59).toNat

def spreads : Nat → BitVec 64 → List Word
  | 0, _ => []
  | n + 1, state => permute (spread state) :: spreads n (spread state)

private theorem length_spreads (n : Nat) (state : BitVec 64) : (spreads n state).length = n := by
  induction n generalizing state with
  | zero => rfl
  | succ n ih => simp [spreads, ih]

/-- The key of a seed. -/
def keyOf (seed : Nat) : Vector Word 8 :=
  ⟨(spreads 8 (BitVec.ofNat 64 seed)).toArray, by simp [length_spreads]⟩

/-- The stream of a seed, with no word drawn. -/
def ofSeed (seed : Nat) : Keystream :=
  let key := keyOf seed
  ⟨key, 1, blockAt key 0, 0⟩

/-- The next word, and the stream after it. -/
def next (s : Keystream) : Word × Keystream :=
  let word := s.block[s.drawn]
  if s.drawn = 15 then
    (word, { s with counter := s.counter + 1, block := blockAt s.key s.counter, drawn := 0 })
  else (word, { s with drawn := s.drawn + 1 })

end Keystream

end CrossbarBench
