import Muster.Json.Token

/-! Reading structured values, and passing over those that do not matter. -/

namespace Muster.Json

namespace Reader

/-- Whether one more item of an array follows; the bracket that ends the array is still to be read. -/
def hasItem (isFirst : Bool) : Reader Bool := do
  match ← token with
  | none => refuse .endsInList
  | some ']' => return false
  | some ',' =>
    if isFirst then return true
    else
      eat
      match ← token with
      | none => refuse .endsInValue
      | some ']' => refuseNext .trailingComma
      | some _ => return true
  | some _ => if isFirst then return true else refuseNext .noListEnd

def endArray : Reader Unit := do
  match ← token with
  | none => refuse .endsInList
  | some ']' => eat
  | some ',' =>
    eat
    match ← token with
    | some ']' => refuseNext .trailingComma
    | _ => refuseNext .trailingText
  | some _ => refuseNext .trailingText

/-- The name of one more field of an object, if one follows; the brace that ends the object is still to
be read. -/
def fieldName? (isFirst : Bool) : Reader (Option String) := do
  let first ← (do
    match ← token with
    | none => refuse .endsInObject
    | some '\x7d' => return none
    | some c =>
      if isFirst then return some (some c)
      else if c = ',' then
        eat
        return some (← token)
      else refuseNext .noObjectEnd)
  match first with
  | none => return none
  | some none => refuse .endsInValue
  | some (some '"') => return some (← quoted)
  | some (some '\x7d') => refuseNext .trailingComma
  | some (some _) => refuseNext .noName

def colon : Reader Unit := do
  match ← token with
  | none => refuse .endsInObject
  | some ':' => eat
  | some _ => refuseNext .noColon

/-- The items of an array up to the bracket that ends it, at most `fuel`. -/
def items {α : Type} (item : Reader α) : Nat → Bool → Reader (List α)
  | 0, _ => refuse .endsInList
  | fuel + 1, isFirst => do
    if ← hasItem isFirst then
      let a ← item
      return a :: (← items item fuel false)
    else return []

def fields {α : Type} (value : Reader α) : Nat → Bool → Reader (List (String × α))
  | 0, _ => refuse .endsInObject
  | fuel + 1, isFirst => do
    match ← fieldName? isFirst with
    | none => return []
    | some name =>
      colon
      let a ← value
      return (name, a) :: (← fields value fuel false)

def value : Nat → Reader Json
  | 0 => refuse .noValue
  | fuel + 1 => do
    match ← token with
    | none => refuse .endsInValue
    | some 'n' =>
      word "null".toList
      return .null
    | some 't' =>
      word "true".toList
      return .bool true
    | some 'f' =>
      word "false".toList
      return .bool false
    | some '"' => return .string (← quoted)
    | some '[' =>
      eat
      let l ← items (value fuel) ((← left) + 1) true
      endArray
      return .array l
    | some '\x7b' =>
      eat
      let l ← fields (value fuel) ((← left) + 1) true
      eat
      return ofFields l
    | some c =>
      if c = '-' ∨ c.isDigit then return .number (← number) else refuseNext .noValue

mutual

/-- A value that does not matter, at most `fuel` deep and long. -/
def pass : Nat → Reader Unit
  | 0 => refuse .noValue
  | fuel + 1 => do
    match ← token with
    | none => refuse .endsInValue
    | some 'n' => word "null".toList
    | some 't' => word "true".toList
    | some 'f' => word "false".toList
    | some '"' => passQuoted
    | some '[' =>
      eat
      match ← token with
      | none => refuse .endsInList
      | some ']' => eat
      | some _ => passItems fuel
    | some '\x7b' =>
      eat
      match ← token with
      | none => refuse .endsInObject
      | some '\x7d' => eat
      | some _ => passFields fuel
    | some c =>
      if c = '-' ∨ c.isDigit then
        let _ ← numeral false
      else refuseNext .noValue

def passItems : Nat → Reader Unit
  | 0 => refuse .noValue
  | fuel + 1 => do
    pass fuel
    match ← token with
    | none => refuse .endsInList
    | some ']' => eat
    | some ',' =>
      eat
      passItems fuel
    | some _ => refuseNext .noListEnd

def passFields : Nat → Reader Unit
  | 0 => refuse .noValue
  | fuel + 1 => do
    match ← token with
    | none => refuse .endsInObject
    | some '"' => passQuoted
    | some _ => refuseNext .noName
    colon
    pass fuel
    match ← token with
    | none => refuse .endsInObject
    | some '\x7d' => eat
    | some ',' =>
      eat
      passFields fuel
    | some _ => refuseNext .noObjectEnd

end

def run {α : Type} (r : Reader α) (text : String) : Except Fault α :=
  let whole : Reader α := do
    let a ← r
    match ← token with
    | none => return a
    | some _ => refuseNext .trailingText
  (whole (Cursor.ofText text)).map (·.1)

end Reader

def read? (text : String) : Option Json :=
  (Reader.run (do Reader.value (← Reader.left)) text).toOption

end Muster.Json
