import Muster.Decimal.Shortest

/-! Structured values as they are written for machines. -/

namespace Muster

/-- A number: whole if it is written without point and exponent and fits in 64 bits, otherwise the
bits of a finite double. -/
inductive Json.Number where
  | whole (n : Int)
  | real (bits : UInt64)
  deriving DecidableEq, Repr, Inhabited

/-- A structured value. The fields of an object stand in the order of their names. -/
inductive Json where
  | null
  | bool (b : Bool)
  | number (n : Json.Number)
  | string (s : String)
  | array (items : List Json)
  | object (fields : List (String × Json))
  deriving Inhabited

namespace Json

/-- Fields with one more at its place in the order, in place of an older one of its name. -/
def insertField (name : String) (value : Json) : List (String × Json) → List (String × Json)
  | [] => [(name, value)]
  | f :: fs =>
    if name < f.1 then (name, value) :: f :: fs
    else if name = f.1 then (name, value) :: fs
    else f :: insertField name value fs

def ofFields (fields : List (String × Json)) : Json :=
  .object (fields.foldl (fun acc f => insertField f.1 f.2 acc) [])

def nat (n : Nat) : Json := .number (.whole n)

def field? (j : Json) (name : String) : Option Json :=
  match j with
  | .object fields => fields.lookup name
  | _ => none

end Json

end Muster
