import Muster.Decimal.Binary64

/-! The fewest decimal digits that still read back as the same double. -/

namespace Muster.Decimal

/-- The numbers that round to a double, in units of `1 / den`: those from `low` to `high`, the ends
included if `closed`. The double itself is `value`. -/
structure Interval where
  low : Nat
  value : Nat
  high : Nat
  den : Nat
  closed : Bool

/-- The interval of a double that is not zero. Below a power of two the neighbour is half as far. -/
def Interval.ofParts (p : Parts) : Interval :=
  let unit := Nat.pow 2 p.power
  let lowStep := if p.significand = Nat.pow 2 52 ∧ p.power ≠ 0 then unit else 2 * unit
  ⟨4 * p.significand * unit - lowStep, 4 * p.significand * unit,
    4 * p.significand * unit + 2 * unit, 4 * Nat.pow 2 1074, p.significand % 2 == 0⟩

def Interval.holds (i : Interval) (n num den : Nat) : Bool :=
  let x := n * num * i.den
  if i.closed then i.low * den ≤ x && x ≤ i.high * den
  else i.low * den < x && x < i.high * den

/-- Digits `d` and a point position: the number is `0.d * 10 ^ point`. -/
structure Digits where
  digits : List Char
  point : Int

/-- How many digits the whole part of `num / den` has, or minus the number of zeros after the point. -/
def pointOf (num den : Nat) : Int :=
  if den ≤ num then ((Nat.toDigits 10 (num / den)).length : Int)
  else - ((List.range 400).find? fun z => den ≤ num * Nat.pow 10 (z + 1)).getD 0

/-- The best multiple of `10 ^ (point - count)` that rounds to the double, if there is one. -/
def candidate? (i : Interval) (point : Int) (count : Nat) : Option Nat :=
  let e := point - count
  let num := if 0 ≤ e then Nat.pow 10 e.toNat else 1
  let den := if 0 ≤ e then 1 else Nat.pow 10 e.natAbs
  let below := i.value * den / (i.den * num)
  let above := below + 1
  match i.holds below num den, i.holds above num den with
  | false, false => none
  | true, false => some below
  | false, true => some above
  | true, true =>
    let down := i.value * den - below * num * i.den
    let up := above * num * i.den - i.value * den
    some (if down < up then below else if up < down then above
      else if below % 2 = 0 then below else above)

def shortest (p : Parts) : Digits :=
  let i := Interval.ofParts p
  let point := pointOf i.value i.den
  let found := (List.range 17).findSome? fun k =>
    (candidate? i point (k + 1)).map fun n => (n, k + 1)
  match found with
  | none => ⟨['0'], 1⟩
  | some (n, count) =>
    let ds := Nat.toDigits 10 n
    let kept := (ds.reverse.dropWhile (· == '0')).reverse
    ⟨kept, point + ds.length - count⟩

structure PointRange where
  least : Int
  greatest : Int

/-- The digits with a point among them, or with one digit before the point and an exponent whose sign
is always written. -/
def Digits.write (d : Digits) (r : PointRange) : String :=
  let e := d.point - 1
  String.ofList <|
    if r.least ≤ e ∧ e ≤ r.greatest then
      if d.point ≤ 0 then
        '0' :: '.' :: List.replicate d.point.natAbs '0' ++ d.digits
      else if d.digits.length ≤ d.point.toNat then
        d.digits ++ List.replicate (d.point.toNat - d.digits.length) '0' ++ ['.', '0']
      else d.digits.take d.point.toNat ++ '.' :: d.digits.drop d.point.toNat
    else
      let tail := d.digits.drop 1
      d.digits.take 1 ++ (if tail.isEmpty then [] else '.' :: tail) ++
        'e' :: (if e < 0 then '-' else '+') :: Nat.toDigits 10 e.natAbs

end Muster.Decimal
