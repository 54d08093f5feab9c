import Muster.Decimal.Binary64

/-! Doubles written with a fixed number of decimal places. -/

namespace Muster.Decimal

/-- The quotient rounded to the nearest whole number, a half going to the even neighbour. -/
def roundDiv (num den : Nat) : Nat :=
  let q := num / den
  let r := num % den
  if den < 2 * r then q + 1
  else if 2 * r < den then q
  else q + q % 2

/-- A double with `places` decimal places, rounded from its exact value; the sign stays when the
digits are all zero. -/
def writePlaces (bits : UInt64) (places : Nat) : String :=
  let x := Exact.ofBits bits
  let n := roundDiv (x.num * Nat.pow 10 places) x.den
  let whole := toString (n / Nat.pow 10 places)
  let part := Nat.toDigits 10 (n % Nat.pow 10 places)
  (if x.negative then "-" else "") ++ whole ++ "." ++
    String.ofList (List.replicate (places - part.length) '0' ++ part)

end Muster.Decimal
