import Muster.Toml.Quoted
import Muster.Toml.Scalar

/-! Reading configuration documents. -/

namespace Muster.Toml

/-- How deep values may lie in one another, and how many dots a name may have. -/
def depthLimit : Nat := 80

def isNameChar (c : Char) : Bool :=
  c.isDigit || ('a' ≤ c && c ≤ 'z') || ('A' ≤ c && c ≤ 'Z') || c == '-' || c == '_'

def namePart? (cs : List Char) : Option (String × List Char) :=
  match cs with
  | '"' :: r => (basic? r).map fun (s, rest) => (String.ofList s, rest)
  | '\'' :: r => (literal? r).map fun (s, rest) => (String.ofList s, rest)
  | _ =>
    let s := cs.takeWhile isNameChar
    if s.isEmpty then none else some (String.ofList s, cs.dropWhile isNameChar)

def nameParts? : Nat → List Char → Option (List String × List Char)
  | 0, _ => none
  | fuel + 1, cs => do
    let (part, rest) ← namePart? (cs.dropWhile isSpace)
    match rest.dropWhile isSpace with
    | '.' :: rest => do
      let (parts, rest) ← nameParts? fuel rest
      return (part :: parts, rest)
    | rest => return ([part], rest)

def name? (cs : List Char) : Option ((List String × String) × List Char) := do
  let (parts, rest) ← nameParts? (depthLimit - 1) cs
  let last ← parts.getLast?
  return ((parts.dropLast, last), rest)

def newline? : List Char → Option (List Char)
  | '\n' :: cs => some cs
  | '\r' :: '\n' :: cs => some cs
  | _ => none

def comment : List Char → List Char
  | '#' :: cs => cs.dropWhile isTextChar
  | cs => cs

/-- What follows the end of a line, where only blanks and a comment may stand. -/
def lineEnd? (cs : List Char) : Option (List Char) :=
  match comment (cs.dropWhile isSpace) with
  | [] => some []
  | cs => newline? cs

/-- What follows blanks, newlines and comments, at most `fuel` lines of them. -/
def filler : Nat → List Char → List Char
  | 0, cs => cs
  | fuel + 1, cs =>
    let cs := cs.dropWhile isSpace
    match newline? (comment cs) with
    | some rest => filler fuel rest
    | none => cs

mutual

def value? : Nat → Nat → List Char → Option (Toml × List Char)
  | 0, _, _ => none
  | fuel + 1, depth, cs =>
    match cs with
    | [] => none
    | c :: r =>
      if c = '"' ∨ c = '\'' then (quoted? cs).map fun (s, rest) => (.text (String.ofList s), rest)
      else if c = '[' then
        if depthLimit ≤ depth + 1 then none
        else (items? fuel (depth + 1) r).map fun (l, rest) => (.array l, rest)
      else if c = '\x7b' then
        if depthLimit ≤ depth + 1 then none
        else match r.dropWhile isSpace with
          | '\x7d' :: rest => some (.inline [], rest)
          | r => (fields? fuel (depth + 1) [] r).map fun (l, rest) => (.inline l, rest)
      else if c = 't' then (word? "true" cs).map fun rest => (.bool true, rest)
      else if c = 'f' then (word? "false" cs).map fun rest => (.bool false, rest)
      else match moment? cs with
        | some rest => some (.moment, rest)
        | none => match real? cs with
          | some rest => some (.real, rest)
          | none => (whole? cs).map fun (n, rest) => (.whole n, rest)

def items? : Nat → Nat → List Char → Option (List Toml × List Char)
  | 0, _, _ => none
  | fuel + 1, depth, cs =>
    match filler (cs.length + 1) cs with
    | ']' :: rest => some ([], rest)
    | cs => do
      let (item, rest) ← value? fuel depth cs
      match filler (rest.length + 1) rest with
      | ']' :: rest => some ([item], rest)
      | ',' :: rest => (items? fuel depth rest).map fun (l, rest) => (item :: l, rest)
      | _ => none

def fields? : Nat → Nat → Fields → List Char → Option (Fields × List Char)
  | 0, _, _, _ => none
  | fuel + 1, depth, before, cs => do
    let ((path, name), rest) ← name? cs
    let rest ← word? "=" rest
    let (value, rest) ← value? fuel depth (rest.dropWhile isSpace)
    let fields ← insert path name value before
    match rest.dropWhile isSpace with
    | '\x7d' :: rest => some (fields, rest)
    | ',' :: rest => fields? fuel depth fields rest
    | _ => none

end

def header? (d : Draft) (cs : List Char) : Option (Draft × List Char) :=
  match cs with
  | '[' :: r => do
    let ((path, name), rest) ← name? r
    let rest ← word? "]]" rest
    let rest ← lineEnd? rest
    return (← d.openItem (path ++ [name]), rest)
  | _ => do
    let ((path, name), rest) ← name? cs
    let rest ← word? "]" rest
    let rest ← lineEnd? rest
    return (← d.openTable (path ++ [name]), rest)

def field? (d : Draft) (cs : List Char) : Option (Draft × List Char) := do
  let ((path, name), rest) ← name? cs
  let rest ← word? "=" rest
  let (value, rest) ← value? (2 * rest.length + 2) 0 (rest.dropWhile isSpace)
  let rest ← lineEnd? rest
  return ({ d with fields := ← insert path name value d.fields }, rest)

def lines? : Nat → Draft → List Char → Option Draft
  | 0, _, _ => none
  | fuel + 1, d, cs =>
    match cs.dropWhile isSpace with
    | [] => some d
    | '[' :: r => do
      let (d, rest) ← header? d r
      lines? fuel d rest
    | c :: r =>
      if c = '#' ∨ c = '\n' ∨ c = '\r' then do
        let rest ← lineEnd? (c :: r)
        lines? fuel d rest
      else do
        let (d, rest) ← field? d (c :: r)
        lines? fuel d rest

def read? (text : String) : Option Fields := do
  let cs := match text.toList with
    | '\ufeff' :: cs => cs
    | cs => cs
  let d ← lines? (cs.length + 1) {} cs
  d.close

end Muster.Toml
