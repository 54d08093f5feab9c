/-! Places in a text that is read, and what may be wrong there. Lines are counted from one, and columns
are the bytes in front of a place in its line. -/

namespace Muster.Json

/-- A place in a text: what follows, how many characters that is, and where it is. -/
structure Cursor where
  rest : List Char
  left : Nat
  line : Nat := 1
  column : Nat := 0
  deriving Repr

inductive Mistake where
  | endsInList
  | endsInObject
  | endsInString
  | endsInValue
  | noColon
  | noListEnd
  | noObjectEnd
  | noWord
  | noValue
  | badEscape
  | badNumber
  | tooLarge
  | controlCharacter
  | noName
  | loneHalf
  | halfCharacter
  | trailingComma
  | trailingText
  | wrongType (found expected : String)
  | wrongValue (found expected : String)
  | wrongLength (found : Nat) (expected : String)
  | missingField (name : String)
  | repeatedField (name : String)
  deriving DecidableEq, Repr

def Mistake.text : Mistake → String
  | .endsInList => "EOF while parsing a list"
  | .endsInObject => "EOF while parsing an object"
  | .endsInString => "EOF while parsing a string"
  | .endsInValue => "EOF while parsing a value"
  | .noColon => "expected `:`"
  | .noListEnd => "expected `,` or `]`"
  | .noObjectEnd => "expected `,` or `\x7d`"
  | .noWord => "expected ident"
  | .noValue => "expected value"
  | .badEscape => "invalid escape"
  | .badNumber => "invalid number"
  | .tooLarge => "number out of range"
  | .controlCharacter => "control character (\\u0000-\\u001F) found while parsing a string"
  | .noName => "key must be a string"
  | .loneHalf => "lone leading surrogate in hex escape"
  | .halfCharacter => "unexpected end of hex escape"
  | .trailingComma => "trailing comma"
  | .trailingText => "trailing characters"
  | .wrongType found expected => "invalid type: " ++ found ++ ", expected " ++ expected
  | .wrongValue found expected => "invalid value: " ++ found ++ ", expected " ++ expected
  | .wrongLength found expected =>
    "invalid length " ++ toString found ++ ", expected " ++ expected
  | .missingField name => "missing field `" ++ name ++ "`"
  | .repeatedField name => "duplicate field `" ++ name ++ "`"

structure Fault where
  mistake : Mistake
  line : Nat
  column : Nat
  deriving DecidableEq, Repr

def Fault.message (f : Fault) : String :=
  f.mistake.text ++ " at line " ++ toString f.line ++ " column " ++ toString f.column

namespace Cursor

def ofText (text : String) : Cursor := ⟨text.toList, text.length, 1, 0⟩

/-- Where so many bytes lead, at most to the end. A line ends with its newline. -/
def placeAfter : Nat → List Char → Nat × Nat → Nat × Nat
  | 0, _, place => place
  | _, [], place => place
  | n + 1, '\n' :: cs, (line, _) => placeAfter n cs (line + 1, 0)
  | n + 1, c :: cs, (line, column) =>
    placeAfter (n + 1 - c.utf8Size) cs (line, column + min (n + 1) c.utf8Size)

/-- The place behind characters, the last of which is followed by `rest`. -/
def passing (c : Cursor) (taken rest : List Char) : Cursor :=
  let (line, column) := placeAfter (taken.foldl (fun n ch => n + ch.utf8Size) 0) taken
    (c.line, c.column)
  ⟨rest, c.left - taken.length, line, column⟩

end Cursor

abbrev Reader := StateT Cursor (Except Fault)

namespace Reader

def refuseAfter {α : Type} (bytes : Nat) (m : Mistake) : Reader α := fun c =>
  let (line, column) := Cursor.placeAfter bytes c.rest (c.line, c.column)
  .error ⟨m, line, column⟩

def refuse {α : Type} (m : Mistake) : Reader α := refuseAfter 0 m

def refuseNext {α : Type} (m : Mistake) : Reader α := refuseAfter 1 m

def peek : Reader (Option Char) := fun c => .ok (c.rest.head?, c)

def left : Reader Nat := fun c => .ok (c.left, c)

def take (count : Nat) : Reader (List Char) := fun c =>
  .ok (c.rest.take count, c.passing (c.rest.take count) (c.rest.drop count))

def eat : Reader Unit := fun c => .ok ((), c.passing (c.rest.take 1) (c.rest.drop 1))

def takeWhile (p : Char → Bool) : Reader (List Char) := fun c =>
  .ok (c.rest.takeWhile p, c.passing (c.rest.takeWhile p) (c.rest.dropWhile p))

def isSpace (c : Char) : Bool := c == ' ' || c == '\n' || c == '\r' || c == '\t'

/-- Passes over blanks. Gives the first character behind them. -/
def token : Reader (Option Char) := do
  let _ ← takeWhile isSpace
  peek

end Reader

end Muster.Json
