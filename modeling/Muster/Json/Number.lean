import Muster.Json
import Muster.Text.Digits

/-! The numbers that numerals stand for. -/

namespace Muster.Json

/-- Appends digits to a whole significand while it stays below `2 ^ 64`, and counts those that were
left out. -/
def takeDigits (significand : Nat) : List Char → Nat × Nat × Nat
  | [] => (significand, 0, 0)
  | d :: ds =>
    let next := significand * 10 + (d.toNat - '0'.toNat)
    if Nat.pow 2 64 ≤ next then (significand, 0, ds.length + 1)
    else
      let (s, taken, left) := takeDigits next ds
      (s, taken + 1, left)

/-- The number that a numeral stands for, if it has one: not if it is too large for a double. -/
def Number.ofNumeral? (numeral : List Char) : Option Number :=
  let negative := numeral.head? == some '-'
  let cs := if negative then numeral.drop 1 else numeral
  let whole := cs.takeWhile Char.isDigit
  let afterWhole := cs.dropWhile Char.isDigit
  let point := match afterWhole with
    | '.' :: r => r.takeWhile Char.isDigit
    | _ => []
  let afterPoint := match afterWhole with
    | '.' :: r => r.dropWhile Char.isDigit
    | r => r
  let (significand, _, dropped) := takeDigits 0 whole
  if dropped = 0 ∧ afterWhole.isEmpty ∧ !(negative && (significand == 0 || Nat.pow 2 63 < significand)) then
    some (.whole (if negative then -(significand : Int) else significand))
  else
    let (significand, taken, _) := takeDigits significand point
    let exponent : Int := dropped - taken
    let real (e : Int) : Option Number :=
      (Decimal.Numeral.mk negative significand e).toBits?.map .real
    match afterPoint with
    | 'e' :: r =>
      let minus := r.head? == some '-'
      let ds := r.filter Char.isDigit
      let power := Text.ofDigits 10 ds
      if Nat.pow 2 31 ≤ power then
        if significand ≠ 0 ∧ !minus then none
        else some (.real (if negative then (-0.0 : Float) else 0.0).toBits)
      else real (if minus then exponent - power else exponent + power)
    | _ => real exponent

def Number.toBits : Number → UInt64
  | .whole n =>
    let f := n.natAbs.toUInt64.toFloat
    (if n < 0 then -f else f).toBits
  | .real bits => bits

end Muster.Json
