import Muster.Text.Digits

/-! Texts of configuration documents: with escapes or without, on one line or on several. -/

namespace Muster.Toml

def isTextChar (c : Char) : Bool := c == '\t' || (0x20 ≤ c.toNat && c.toNat != 0x7f)

def isSpace (c : Char) : Bool := c == ' ' || c == '\t'

def scalar? (n : Nat) : Option Char := if h : n.isValidChar then some (Char.ofNatAux n h) else none

def escaped? : Char → Option Char
  | 'b' => some '\x08'
  | 't' => some '\t'
  | 'n' => some '\n'
  | 'f' => some '\x0c'
  | 'r' => some '\r'
  | '"' => some '"'
  | '\\' => some '\\'
  | _ => none

def basic? : List Char → Option (List Char × List Char)
  | [] => none
  | '"' :: cs => some ([], cs)
  | '\\' :: 'u' :: a :: b :: c :: d :: cs => do
    let ch ← (← Text.ofHex? [a, b, c, d]) |> scalar?
    let (s, rest) ← basic? cs
    return (ch :: s, rest)
  | '\\' :: 'U' :: a :: b :: c :: d :: e :: f :: g :: h :: cs => do
    let ch ← (← Text.ofHex? [a, b, c, d, e, f, g, h]) |> scalar?
    let (s, rest) ← basic? cs
    return (ch :: s, rest)
  | '\\' :: e :: cs => do
    let ch ← escaped? e
    let (s, rest) ← basic? cs
    return (ch :: s, rest)
  | c :: cs =>
    if isTextChar c then (basic? cs).map fun (s, rest) => (c :: s, rest) else none

def endsLine (cs : List Char) : Bool :=
  match cs.dropWhile isSpace with
  | '\n' :: _ => true
  | '\r' :: '\n' :: _ => true
  | _ => false

/-- A text with escapes over several lines, up to its three closing quotes. After a backslash at the end
of a line, blanks and newlines are passed over. -/
def longBasic? (passing : Bool) : List Char → Option (List Char × List Char)
  | [] => none
  | '"' :: '"' :: '"' :: '"' :: '"' :: cs => some (['"', '"'], cs)
  | '"' :: '"' :: '"' :: '"' :: cs => some (['"'], cs)
  | '"' :: '"' :: '"' :: cs => some ([], cs)
  | '\r' :: '\n' :: cs =>
    if passing then longBasic? true cs
    else (longBasic? false cs).map fun (s, rest) => ('\n' :: s, rest)
  | '\\' :: cs =>
    if endsLine cs then longBasic? true cs
    else match cs with
      | 'u' :: a :: b :: c :: d :: cs => do
        let ch ← (← Text.ofHex? [a, b, c, d]) |> scalar?
        let (s, rest) ← longBasic? false cs
        return (ch :: s, rest)
      | 'U' :: a :: b :: c :: d :: e :: f :: g :: h :: cs => do
        let ch ← (← Text.ofHex? [a, b, c, d, e, f, g, h]) |> scalar?
        let (s, rest) ← longBasic? false cs
        return (ch :: s, rest)
      | e :: cs => do
        let ch ← escaped? e
        let (s, rest) ← longBasic? false cs
        return (ch :: s, rest)
      | [] => none
  | c :: cs =>
    if passing && (isSpace c || c == '\n') then longBasic? true cs
    else if isTextChar c || c == '\n' then
      (longBasic? false cs).map fun (s, rest) => (c :: s, rest)
    else none

def literal? : List Char → Option (List Char × List Char)
  | [] => none
  | '\'' :: cs => some ([], cs)
  | c :: cs =>
    if isTextChar c then (literal? cs).map fun (s, rest) => (c :: s, rest) else none

def longLiteral? : List Char → Option (List Char × List Char)
  | [] => none
  | '\'' :: '\'' :: '\'' :: '\'' :: '\'' :: cs => some (['\'', '\''], cs)
  | '\'' :: '\'' :: '\'' :: '\'' :: cs => some (['\''], cs)
  | '\'' :: '\'' :: '\'' :: cs => some ([], cs)
  | '\r' :: '\n' :: cs => (longLiteral? cs).map fun (s, rest) => ('\n' :: s, rest)
  | c :: cs =>
    if isTextChar c || c == '\n' then
      (longLiteral? cs).map fun (s, rest) => (c :: s, rest)
    else none

def dropNewline : List Char → List Char
  | '\n' :: cs => cs
  | '\r' :: '\n' :: cs => cs
  | cs => cs

def quoted? : List Char → Option (List Char × List Char)
  | '"' :: '"' :: '"' :: cs => longBasic? false (dropNewline cs)
  | '"' :: cs => basic? cs
  | '\'' :: '\'' :: '\'' :: cs => longLiteral? (dropNewline cs)
  | '\'' :: cs => literal? cs
  | _ => none

end Muster.Toml
