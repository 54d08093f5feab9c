import Muster.Text.Digits
import Muster.Toml

/-! Numbers and moments in time of configuration documents. -/

namespace Muster.Toml

/-- The digits that go on a number in the given base, single underscores before some of them, and what
follows. Gives the digits alone. -/
def moreDigits? (base : Nat) : List Char → Option (List Char × List Char)
  | [] => some ([], [])
  | '_' :: d :: cs =>
    if (Text.digitValue? base d).isNone then none
    else (moreDigits? base cs).map fun (ds, rest) => (d :: ds, rest)
  | c :: cs =>
    if (Text.digitValue? base c).isNone then some ([], c :: cs)
    else (moreDigits? base cs).map fun (ds, rest) => (c :: ds, rest)

def digits? (base : Nat) : List Char → Option (List Char × List Char)
  | [] => none
  | c :: cs =>
    if (Text.digitValue? base c).isNone then none
    else (moreDigits? base cs).map fun (ds, rest) => (c :: ds, rest)

def sign : List Char → Bool × List Char
  | '-' :: cs => (true, cs)
  | '+' :: cs => (false, cs)
  | cs => (false, cs)

/-- The digits of a whole number: zero alone, or without a zero in front. -/
def wholeDigits? (cs : List Char) : Option (List Char × List Char) :=
  match cs with
  | '0' :: rest => some (['0'], rest)
  | _ => digits? 10 cs

def whole? (cs : List Char) : Option (Int × List Char) :=
  let inBase (base : Nat) (cs : List Char) : Option (Int × List Char) := do
    let (ds, rest) ← digits? base cs
    let n := Text.ofDigits base ds
    if n < Nat.pow 2 63 then some (n, rest) else none
  match cs with
  | '0' :: 'x' :: cs => inBase 16 cs
  | '0' :: 'o' :: cs => inBase 8 cs
  | '0' :: 'b' :: cs => inBase 2 cs
  | _ => do
    let (negative, cs) := sign cs
    let (ds, rest) ← wholeDigits? cs
    let n := Text.ofDigits 10 ds
    if negative then if n ≤ Nat.pow 2 63 then some (-(n : Int), rest) else none
    else if n < Nat.pow 2 63 then some (n, rest) else none

def exponent? : List Char → Option (Int × List Char)
  | e :: cs =>
    if e = 'e' ∨ e = 'E' then do
      let (negative, cs) := sign cs
      let (ds, rest) ← digits? 10 cs
      let n := Text.ofDigits 10 ds
      return (if negative then -(n : Int) else n, rest)
    else none
  | [] => none

def isTooLarge (significand : Nat) (exponent : Int) : Bool :=
  let size : Int := (Nat.toDigits 10 significand).length + exponent
  if significand = 0 ∨ size < 300 then false
  else if 320 < size then true
  else
    let limit := Nat.pow 2 1024 - Nat.pow 2 970
    if 0 ≤ exponent then limit ≤ significand * Nat.pow 10 exponent.toNat
    else limit * Nat.pow 10 exponent.natAbs ≤ significand

def word? (word : String) (cs : List Char) : Option (List Char) :=
  if word.toList.isPrefixOf cs then some (cs.drop word.length) else none

/-- A number with a point or an exponent, or an infinity, or no number. Gives what follows. -/
def real? (cs : List Char) : Option (List Char) :=
  let (negative, digits) := sign cs
  match wholeDigits? digits with
  | none => (word? "inf" digits).or (word? "nan" digits)
  | some (front, rest) => do
    let (part, power, rest) ← match rest with
      | '.' :: r => do
        let (part, r) ← digits? 10 r
        match exponent? r with
        | some (e, r) => some (part, e, r)
        | none => some (part, 0, r)
      | r => do
        let (e, r) ← exponent? r
        some ([], e, r)
    if isTooLarge (Text.ofDigits 10 (front ++ part)) (power - part.length) && !negative then none
    else some rest

def fixed? (count low high : Nat) (cs : List Char) : Option (Nat × List Char) :=
  let ds := cs.take count
  let n := Text.ofDigits 10 ds
  if ds.length = count ∧ ds.all Char.isDigit ∧ low ≤ n ∧ n ≤ high then some (n, cs.drop count)
  else none

def monthDays (year month : Nat) : Nat :=
  if month = 2 then
    if (year % 4 = 0 ∧ year % 100 ≠ 0) ∨ year % 400 = 0 then 29 else 28
  else if month = 4 ∨ month = 6 ∨ month = 9 ∨ month = 11 then 30
  else 31

def date? (cs : List Char) : Option (List Char) := do
  let (year, cs) ← fixed? 4 0 9999 cs
  let cs ← word? "-" cs
  let (month, cs) ← fixed? 2 1 12 cs
  let cs ← word? "-" cs
  let (_, cs) ← fixed? 2 1 (monthDays year month) cs
  return cs

/-- A time of day; a minute may have a leap second. -/
def time? (cs : List Char) : Option (List Char) := do
  let (_, cs) ← fixed? 2 0 23 cs
  let cs ← word? ":" cs
  let (_, cs) ← fixed? 2 0 59 cs
  let cs ← word? ":" cs
  let (_, cs) ← fixed? 2 0 60 cs
  match cs with
  | '.' :: r => if (r.takeWhile Char.isDigit).isEmpty then none else some (r.dropWhile Char.isDigit)
  | _ => some cs

def offset (cs : List Char) : List Char :=
  match cs with
  | 'Z' :: r => r
  | 'z' :: r => r
  | c :: r =>
    if c = '+' ∨ c = '-' then
      ((fixed? 2 0 23 r).bind fun (_, r) => (word? ":" r).bind fun r =>
        (fixed? 2 0 59 r).map (·.2)).getD cs
    else cs
  | [] => []

def moment? (cs : List Char) : Option (List Char) :=
  match date? cs with
  | none => time? cs
  | some cs =>
    match cs with
    | c :: r =>
      if c = 'T' ∨ c = 't' ∨ c = ' ' then some (((time? r).map offset).getD cs) else some cs
    | [] => some []

end Muster.Toml
