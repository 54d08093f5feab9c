/-! Finite double precision numbers as exact fractions, and decimal numerals read into doubles. -/

namespace Muster.Decimal

structure Exact where
  negative : Bool
  num : Nat
  den : Nat

/-- A finite double taken apart: its magnitude is `significand * 2 ^ power / 2 ^ 1074`. -/
structure Parts where
  negative : Bool
  significand : Nat
  power : Nat

def Parts.ofBits (bits : UInt64) : Parts :=
  let n := bits.toNat
  let exponent := n / Nat.pow 2 52 % Nat.pow 2 11
  let fraction := n % Nat.pow 2 52
  ⟨n / Nat.pow 2 63 == 1, if exponent = 0 then fraction else Nat.pow 2 52 + fraction, exponent - 1⟩

def Exact.ofBits (bits : UInt64) : Exact :=
  let p := Parts.ofBits bits
  ⟨p.negative, p.significand * Nat.pow 2 p.power, Nat.pow 2 1074⟩

/-- A decimal numeral with a whole significand: `significand * 10 ^ exponent`. -/
structure Numeral where
  negative : Bool
  significand : Nat
  exponent : Int

/-- Divides by powers of ten that a double can hold until the whole exponent is used up, or
nothing is left to divide. -/
def divideDown : Nat → Float → Nat → Float
  | 0, f, _ => f
  | fuel + 1, f, exponent =>
    if exponent ≤ 308 then f / Float.ofScientific 1 false exponent
    else if f == 0 then f
    else divideDown fuel (f / Float.ofScientific 1 false 308) (exponent - 308)

/-- The double nearest to the significand, multiplied or divided by the double nearest to the power of
ten, each with one rounding. Nothing if the result is too large. -/
def Numeral.toBits? (n : Numeral) : Option UInt64 :=
  let f := n.significand.toUInt64.toFloat
  let magnitude? : Option Float :=
    if n.exponent < 0 then some (divideDown (n.exponent.natAbs + 1) f n.exponent.natAbs)
    else if n.exponent ≤ 308 then
      let g := f * Float.ofScientific 1 false n.exponent.toNat
      if g.isInf then none else some g
    else if f == 0 then some f
    else none
  magnitude?.map fun g => (if n.negative then -g else g).toBits

end Muster.Decimal
