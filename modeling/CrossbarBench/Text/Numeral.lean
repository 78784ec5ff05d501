/-! Numerals as log lines write them: hexadecimal behind `0x`, and numbers filled
with zeros to a least number of digits. -/

namespace CrossbarBench.Text

/-- The digits of `n` in `base`, with zeros in front up to `places` digits. -/
def padded (base places n : Nat) : String :=
  String.ofList ((Nat.toDigits base n).leftpad places '0')

/-- Lower-case hexadecimal with as many digits as the number needs. -/
def hex (n : Nat) : String := "0x" ++ padded 16 1 n

/-- Lower-case hexadecimal with at least the eight digits of a bus word. -/
def hexWord (n : Nat) : String := "0x" ++ padded 16 8 n

/-- A simulation time, in at least eight decimal digits. -/
def timestamp (n : Nat) : String := padded 10 8 n

end CrossbarBench.Text
