import Muster.Json.Printer
import Muster.Json.Reader
import Muster.Text.Quoted

/-! Reading records from structured values. A record is written as an object, whose unknown fields do not
count, or as an array of its fields in order. -/

namespace Muster.Json

/-- A field of a record, and how it changes the record once its value is read. -/
structure Field (ρ : Type) where
  name : String
  isRequired : Bool := false
  read : Reader (ρ → ρ)

def Number.shown (n : Number) : String :=
  (match n with
    | .whole _ => "integer `"
    | .real _ => "floating point `") ++ n.write ++ "`"

namespace Reader

def refuseType {α : Type} (expected : String) : Reader α := do
  match ← peek with
  | some 'n' =>
    word "null".toList
    refuse (.wrongType "null" expected)
  | some 't' =>
    word "true".toList
    refuse (.wrongType "boolean `true`" expected)
  | some 'f' =>
    word "false".toList
    refuse (.wrongType "boolean `false`" expected)
  | some '"' =>
    let s ← quoted
    refuse (.wrongType ("string " ++ Text.quote s) expected)
  | some '[' => refuse (.wrongType "sequence" expected)
  | some '\x7b' => refuse (.wrongType "map" expected)
  | some c =>
    if c = '-' ∨ c.isDigit then
      let n ← number
      refuse (.wrongType n.shown expected)
    else refuseNext .noValue
  | none => refuse .endsInValue

def text : Reader String := do
  match ← token with
  | none => refuse .endsInValue
  | some '"' => quoted
  | some _ => refuseType "a string"

def numberOf {α : Type} (expected : String) (use : Number → Except Mistake α) : Reader α := do
  match ← token with
  | none => refuse .endsInValue
  | some c =>
    if c = '-' ∨ c.isDigit then
      match use (← number) with
      | .ok a => return a
      | .error m => refuse m
    else refuseType expected

def count : Reader Nat :=
  numberOf "u64" fun n => match n with
    | .whole (.ofNat k) => .ok k
    | .whole _ => .error (.wrongValue n.shown "u64")
    | .real _ => .error (.wrongType n.shown "u64")

def real : Reader UInt64 := numberOf "f64" fun n => .ok n.toBits

def list {α : Type} (item : Reader α) : Reader (List α) := do
  match ← token with
  | none => refuse .endsInValue
  | some '[' =>
    eat
    let l ← items item ((← left) + 1) true
    endArray
    return l
  | some _ => refuseType "a sequence"

/-- The fields of a record from an object, at most `fuel`, after those with the names `seen`. Gives the
names of all. -/
def namedFields {ρ : Type} (known : List (Field ρ)) :
    Nat → List String → ρ → Reader (List String × ρ)
  | 0, _, _ => refuse .endsInObject
  | fuel + 1, seen, r => do
    match ← fieldName? seen.isEmpty with
    | none => return (seen, r)
    | some name =>
      match known.find? fun f => f.name == name with
      | none =>
        colon
        pass ((← left) + 1)
        namedFields known fuel (name :: seen) r
      | some f =>
        if seen.contains name then
          if (← token) = some '\x7d' then eat
          refuse (.repeatedField name)
        else
          colon
          let change ← f.read
          namedFields known fuel (name :: seen) (change r)

/-- The fields of a record from an array, behind the first `index`. -/
def listedFields {ρ : Type} (expected : String) : List (Field ρ) → Nat → ρ → Reader ρ
  | [], _, r => return r
  | f :: fs, index, r => do
    if ← hasItem (index = 0) then
      let change ← f.read
      listedFields expected fs (index + 1) (change r)
    else if f.isRequired then
      eat
      refuse (.wrongLength index expected)
    else listedFields expected fs index r

def title (name : String) : String := "struct " ++ name

def longTitle (name : String) (size : Nat) : String :=
  title name ++ " with " ++ toString size ++ if size = 1 then " element" else " elements"

def record {ρ : Type} (name : String) (known : List (Field ρ)) (blank : ρ) : Reader ρ := do
  match ← token with
  | none => refuse .endsInValue
  | some '[' =>
    eat
    let r ← listedFields (longTitle name known.length) known 0 blank
    endArray
    return r
  | some '\x7b' =>
    eat
    let (seen, r) ← namedFields known ((← left) + 1) [] blank
    eat
    match known.find? fun f => f.isRequired && !seen.contains f.name with
    | some f => refuse (.missingField f.name)
    | none => return r
  | some _ => refuseType (title name)

end Reader

end Muster.Json
