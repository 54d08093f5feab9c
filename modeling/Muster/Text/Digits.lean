/-! Digits, and the numbers they stand for. -/

namespace Muster.Text

def hexValue? (c : Char) : Option Nat :=
  if '0' ≤ c ∧ c ≤ '9' then some (c.toNat - '0'.toNat)
  else if 'a' ≤ c ∧ c ≤ 'f' then some (c.toNat - 'a'.toNat + 10)
  else if 'A' ≤ c ∧ c ≤ 'F' then some (c.toNat - 'A'.toNat + 10)
  else none

def digitValue? (base : Nat) (c : Char) : Option Nat :=
  (hexValue? c).bind fun d => if d < base then some d else none

/-- The number that digits in the given base make up; what is no digit counts as zero. -/
def ofDigits (base : Nat) (ds : List Char) : Nat :=
  ds.foldl (fun n d => n * base + (digitValue? base d).getD 0) 0

def ofHex? (ds : List Char) : Option Nat :=
  ds.foldlM (fun n d => (hexValue? d).map fun v => n * 16 + v) 0

/-- A number below `2 ^ 64`, in decimal digits that a plus may precede. -/
def count? (cs : List Char) : Option Nat :=
  let ds := match cs with
    | '+' :: ds => ds
    | ds => ds
  if !ds.isEmpty && ds.all Char.isDigit && ofDigits 10 ds < Nat.pow 2 64 then some (ofDigits 10 ds)
  else none

end Muster.Text
