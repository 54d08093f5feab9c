import Muster.Json.Cursor
import Muster.Json.Number
import Muster.Text.Digits

/-! The words, strings and numbers of structured values. A value that counts is read in full; of one that
does not, only its form matters. -/

namespace Muster.Json.Reader

def word : List Char → Reader Unit
  | [] => return
  | l :: ls => do
    match ← peek with
    | none => refuse .endsInValue
    | some c =>
      if c = l then
        eat
        word ls
      else refuseNext .noWord

def hexEscape : Reader Nat := do
  let ds ← fun c => .ok (c.rest.take 4, c)
  match if ds.length = 4 then Text.ofHex? ds else none with
  | some n =>
    let _ ← take 4
    return n
  | none =>
    if (ds.foldl (fun n ch => n + ch.utf8Size) 0) < 4 then refuseAfter 4 .endsInString
    else refuseAfter 4 .badEscape

/-- One more character of an escape for two halves of a character. -/
def secondHalf (expected : Char) : Reader Unit := do
  match ← peek with
  | none => refuse .endsInString
  | some c => if c = expected then eat else refuseNext .halfCharacter

def namedCharacter : Reader Char := do
  let n ← hexEscape
  if n < 0xd800 ∨ 0xdfff < n then return Char.ofNat n
  else if 0xdc00 ≤ n then refuse .loneHalf
  else
    secondHalf '\\'
    secondHalf 'u'
    let low ← hexEscape
    if 0xdc00 ≤ low ∧ low ≤ 0xdfff then
      return Char.ofNat (0x10000 + (n - 0xd800) * 0x400 + (low - 0xdc00))
    else refuse .loneHalf

def escaped? : Char → Option Char
  | '"' => some '"'
  | '\\' => some '\\'
  | '/' => some '/'
  | 'b' => some '\x08'
  | 'f' => some '\x0c'
  | 'n' => some '\n'
  | 'r' => some '\r'
  | 't' => some '\t'
  | _ => none

def escape : Reader Char := do
  match ← peek with
  | none => refuse .endsInString
  | some 'u' =>
    eat
    namedCharacter
  | some c =>
    match escaped? c with
    | some e =>
      eat
      return e
    | none => refuseNext .badEscape

def passEscape : Reader Unit := do
  match ← peek with
  | some 'u' =>
    eat
    let _ ← hexEscape
  | _ =>
    let _ ← escape

def isPlain (c : Char) : Bool := c != '"' && c != '\\' && 0x20 ≤ c.toNat

/-- The characters of a string up to its closing quote, with at most `fuel` escapes. -/
def characters : Nat → Reader (List Char)
  | 0 => refuse .endsInString
  | fuel + 1 => do
    let plain ← takeWhile isPlain
    match ← peek with
    | none => refuse .endsInString
    | some '"' =>
      eat
      return plain
    | some '\\' =>
      eat
      let c ← escape
      return plain ++ c :: (← characters fuel)
    | some _ => refuseNext .controlCharacter

def passCharacters : Nat → Reader Unit
  | 0 => refuse .endsInString
  | fuel + 1 => do
    let _ ← takeWhile isPlain
    match ← peek with
    | none => refuse .endsInString
    | some '"' => eat
    | some '\\' =>
      eat
      passEscape
      passCharacters fuel
    | some _ => refuse .controlCharacter

def quoted : Reader String := do
  eat
  return String.ofList (← characters ((← left) + 1))

def passQuoted : Reader Unit := do
  eat
  passCharacters ((← left) + 1)

/-- Some digits. Where there is none, it depends on whether the number counts what is wrong at the end of
the text. -/
def digits (counts : Bool) : Reader (List Char) := do
  match ← peek with
  | some c => if c.isDigit then takeWhile Char.isDigit else refuseNext .badNumber
  | none => refuse (if counts then .endsInValue else .badNumber)

/-- The digits in front of the point. There are no others behind a zero. -/
def wholeDigits (counts : Bool) : Reader (List Char) := do
  match ← peek with
  | some '0' =>
    eat
    match ← peek with
    | some c => if c.isDigit then refuseNext .badNumber else return ['0']
    | none => return ['0']
  | _ => digits counts

def fraction (counts : Bool) : Reader (List Char) := do
  match ← peek with
  | some '.' =>
    eat
    return '.' :: (← digits counts)
  | _ => return []

def sign : Reader (List Char) := do
  match ← peek with
  | some '+' =>
    eat
    return ['+']
  | some '-' =>
    eat
    return ['-']
  | _ => return []

def exponent (counts : Bool) : Reader (List Char) := do
  let isMark := match ← peek with
    | some c => c == 'e' || c == 'E'
    | none => false
  if isMark then
    eat
    let s ← sign
    return 'e' :: s ++ (← digits counts)
  else return []

def numeral (counts : Bool) : Reader (List Char) := do
  let minus ← (do
    match ← peek with
    | some '-' =>
      eat
      return ['-']
    | _ => return [])
  let whole ← wholeDigits counts
  let point ← fraction counts
  return minus ++ whole ++ point ++ (← exponent counts)

def number : Reader Number := do
  match Number.ofNumeral? (← numeral true) with
  | some n => return n
  | none => refuse .tooLarge

end Muster.Json.Reader
