import Muster.Json

/-! Structured values written as text, on one line or indented. -/

namespace Muster.Json

/-- The exponents of doubles that are written with a point only. -/
def pointRange : Decimal.PointRange := ⟨-5, 15⟩

def Number.write : Number → String
  | .whole n => toString n
  | .real bits =>
    let p := Decimal.Parts.ofBits bits
    (if p.negative then "-" else "") ++
      if p.significand = 0 then "0.0" else (Decimal.shortest p).write pointRange

def hexDigit (n : Nat) : Char := (Nat.digitChar (n % 16))

def escape (c : Char) : List Char :=
  if c = '"' then ['\\', '"']
  else if c = '\\' then ['\\', '\\']
  else if c = '\x08' then ['\\', 'b']
  else if c = '\x0c' then ['\\', 'f']
  else if c = '\n' then ['\\', 'n']
  else if c = '\r' then ['\\', 'r']
  else if c = '\t' then ['\\', 't']
  else if c.toNat < 0x20 then
    ['\\', 'u', '0', '0', hexDigit (c.toNat / 16), hexDigit c.toNat]
  else [c]

def quote (s : String) : String :=
  String.ofList ('"' :: s.toList.flatMap escape ++ ['"'])

mutual

def compact : Json → String
  | .null => "null"
  | .bool b => if b then "true" else "false"
  | .number n => n.write
  | .string s => quote s
  | .array items => "[" ++ ",".intercalate (compactItems items) ++ "]"
  | .object fields => "\x7b" ++ ",".intercalate (compactFields fields) ++ "\x7d"

def compactItems : List Json → List String
  | [] => []
  | j :: js => compact j :: compactItems js

def compactFields : List (String × Json) → List String
  | [] => []
  | (k, j) :: fs => (quote k ++ ":" ++ compact j) :: compactFields fs

end

def lineStart (depth : Nat) : String := "\n" ++ String.ofList (List.replicate (2 * depth) ' ')

def bracket (opening closing : String) (depth : Nat) (parts : List String) : String :=
  if parts.isEmpty then opening ++ closing
  else
    opening ++ lineStart (depth + 1) ++ ("," ++ lineStart (depth + 1)).intercalate parts ++
      lineStart depth ++ closing

mutual

/-- The value over several lines, as it stands `depth` levels deep. -/
def indented (depth : Nat) : Json → String
  | .null => "null"
  | .bool b => if b then "true" else "false"
  | .number n => n.write
  | .string s => quote s
  | .array items => bracket "[" "]" depth (indentedItems (depth + 1) items)
  | .object fields => bracket "\x7b" "\x7d" depth (indentedFields (depth + 1) fields)

def indentedItems (depth : Nat) : List Json → List String
  | [] => []
  | j :: js => indented depth j :: indentedItems depth js

def indentedFields (depth : Nat) : List (String × Json) → List String
  | [] => []
  | (k, j) :: fs => (quote k ++ ": " ++ indented depth j) :: indentedFields depth fs

end

def pretty (j : Json) : String := indented 0 j

end Muster.Json
