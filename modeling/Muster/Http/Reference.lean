import Muster.Http.Url

/-! References from one address to another, as answers name where something has moved to. -/

namespace Muster.Http

structure Reference where
  scheme? : Option (List Char) := none
  authority? : Option (List Char) := none
  path : List Char
  query? : Option (List Char) := none
  deriving DecidableEq, Repr

namespace Reference

def isPlain (c : Char) : Bool :=
  c.isAlphanum || "-._~!$&'()*+,;=:@".toList.contains c

/-- Whether a text holds only plain characters, escapes, and characters of `more`. -/
def holds (more : List Char) : List Char → Bool
  | [] => true
  | '%' :: a :: b :: cs =>
    (Text.hexValue? a).isSome && (Text.hexValue? b).isSome && holds more cs
  | c :: cs => (isPlain c || more.contains c) && holds more cs

def isScheme : List Char → Bool
  | [] => false
  | c :: cs => c.isAlpha && cs.all fun c => c.isAlphanum || c == '+' || c == '-' || c == '.'

def readRest? (scheme? : Option (List Char)) (cs : List Char) : Option Reference :=
  let isPathEnd (c : Char) : Bool := c == '?' || c == '#'
  let (authority?, cs) : Option (List Char) × List Char := match cs with
    | '/' :: '/' :: r =>
      let isEnd (c : Char) : Bool := c == '/' || isPathEnd c
      (some (r.takeWhile fun c => !isEnd c), r.dropWhile fun c => !isEnd c)
    | _ => (none, cs)
  let path := cs.takeWhile fun c => !isPathEnd c
  let rest := cs.dropWhile fun c => !isPathEnd c
  let query? := match rest with
    | '?' :: q => some (q.takeWhile (· != '#'))
    | _ => none
  let fragment := (rest.dropWhile (· != '#')).drop 1
  if holds ['[', ']'] (authority?.getD []) && holds ['/'] path &&
      holds ['/', '?'] (query?.getD []) && holds ['/', '?'] fragment then
    some { scheme?, authority?, path, query? }
  else none

/-- Reads a reference. A colon in its first segment ends a scheme. -/
def read? (text : String) : Option Reference :=
  let cs := text.toList
  let isEnd (c : Char) : Bool := c == '/' || c == '?' || c == '#' || c == ':'
  let front := cs.takeWhile fun c => !isEnd c
  match cs.dropWhile fun c => !isEnd c with
  | ':' :: rest => if isScheme front then readRest? (some front) rest else none
  | _ => readRest? none cs

/-- How many dots a segment consists of, if nothing else is in it. -/
def dots (s : List Char) : Nat := if s.all (· == '.') then s.length else 0

def cleanPath (path : List Char) : List Char :=
  let cs := match path with
    | '/' :: cs => cs
    | cs => cs
  Url.joinPath (Url.resolveDots dots [] (Url.pieces (· == '/') cs))

def resolve? (r : Reference) (base : Url) : Option Url :=
  match r.scheme?, r.authority? with
  | some scheme, some authority => do
    let (secure, _) ← Url.readScheme? (scheme ++ [':'])
    let (host, endpoint) ← Url.readAuthority? secure authority
    return { secure, host, endpoint, path := cleanPath r.path, query? := r.query? }
  | some _, none => none
  | none, some authority => do
    let (host, endpoint) ← Url.readAuthority? base.secure authority
    return { secure := base.secure, host, endpoint, path := cleanPath r.path, query? := r.query? }
  | none, none =>
    let path :=
      if r.path.isEmpty then base.path
      else if r.path.head? = some '/' then cleanPath r.path
      else cleanPath ((base.path.reverse.dropWhile (· != '/')).reverse ++ r.path)
    let query? := if r.path.isEmpty then r.query? <|> base.query? else r.query?
    some { base with path, query?, fragment? := none }

end Reference

end Muster.Http
