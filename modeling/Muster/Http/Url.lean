import Muster.Text.Digits

/-! Addresses of the web, read as browsers read them: slashes and backslashes are alike, segments of dots
are resolved, and characters that an address cannot hold are escaped. -/

namespace Muster.Http

/-- An address. The endpoint is the number of the service at the host, and the path begins with a
slash. -/
structure Url where
  secure : Bool
  host : String
  endpoint : Nat
  path : List Char
  query? : Option (List Char) := none
  fragment? : Option (List Char) := none
  deriving DecidableEq, Repr

namespace Url

def usualEndpoint (secure : Bool) : Nat := if secure then 443 else 80

def target (u : Url) : List Char :=
  u.path ++ match u.query? with
    | none => []
    | some q => '?' :: q

def authority (u : Url) : String :=
  u.host ++ if u.endpoint = usualEndpoint u.secure then "" else ":" ++ toString u.endpoint

def text (u : Url) : String :=
  (if u.secure then "https://" else "http://") ++ u.authority ++ String.ofList (u.target ++
    match u.fragment? with
    | none => []
    | some f => '#' :: f)

def addQuery (u : Url) (name value : List Char) : Url :=
  let pair := name ++ '=' :: value
  { u with
    query? := some (match u.query? with
      | none => pair
      | some [] => pair
      | some q => q ++ '&' :: pair) }

def isControl (c : Char) : Bool := c.toNat < 0x20 || 0x7f ≤ c.toNat

def isFragmentSpecial (c : Char) : Bool :=
  isControl c || c == ' ' || c == '"' || c == '<' || c == '>' || c == '`'

def isPathSpecial (c : Char) : Bool :=
  isFragmentSpecial c || c == '#' || c == '?' || c == '\x7b' || c == '\x7d'

def isQuerySpecial (c : Char) : Bool :=
  isControl c || c == ' ' || c == '"' || c == '#' || c == '<' || c == '>' || c == '\''

def hexDigit (n : Nat) : Char :=
  if n < 10 then Char.ofNat ('0'.toNat + n) else Char.ofNat ('A'.toNat + (n - 10))

def escape (isSpecial : Char → Bool) (cs : List Char) : List Char :=
  cs.flatMap fun c =>
    if isSpecial c then
      (String.utf8EncodeChar c).flatMap fun b =>
        ['%', hexDigit (b.toNat / 16), hexDigit (b.toNat % 16)]
    else [c]

def pieces (isCut : Char → Bool) : List Char → List (List Char)
  | [] => [[]]
  | c :: cs =>
    if isCut c then [] :: pieces isCut cs
    else match pieces isCut cs with
      | [] => [[c]]
      | p :: ps => (c :: p) :: ps

/-- How many dots a segment consists of, escaped or not; zero if something else is in it. -/
def dots : List Char → Nat
  | [] => 0
  | ['.'] => 1
  | '.' :: cs => if dots cs = 0 then 0 else dots cs + 1
  | '%' :: '2' :: e :: cs =>
    if e = 'e' ∨ e = 'E' then
      if cs.isEmpty then 1 else if dots cs = 0 then 0 else dots cs + 1
    else 0
  | _ => 0

/-- The segments of a path without those of one dot, or of two, which take away the one before. A last
segment of dots leaves an empty one. The segments kept so far are `kept`, the latest first. -/
def resolveDots (dots : List Char → Nat) (kept : List (List Char)) :
    List (List Char) → List (List Char)
  | [] => kept.reverse
  | s :: ss =>
    let rest := if dots s = 1 then kept else if dots s = 2 then kept.tail else s :: kept
    if ss.isEmpty ∧ (dots s = 1 ∨ dots s = 2) then ([] :: rest).reverse
    else resolveDots dots rest ss

def joinPath (segments : List (List Char)) : List Char := segments.flatMap ('/' :: ·)

def isSlash (c : Char) : Bool := c == '/' || c == '\\'

def readPath (cs : List Char) : List Char :=
  let cs := match cs with
    | [] => []
    | c :: rest => if isSlash c then rest else c :: rest
  joinPath (resolveDots dots [] ((pieces isSlash cs).map (escape isPathSpecial)))

def readEndpoint? (secure : Bool) (cs : List Char) : Option Nat :=
  if cs.isEmpty then some (usualEndpoint secure)
  else if cs.all Char.isDigit && Text.ofDigits 10 cs ≤ 65535 then some (Text.ofDigits 10 cs)
  else none

def isHostForbidden (c : Char) : Bool :=
  c.toNat ≤ 0x20 || c == '#' || c == '%' || c == '/' || c == ':' || c == '<' || c == '>' ||
    c == '?' || c == '@' || c == '[' || c == '\\' || c == ']' || c == '^' || c == '|' ||
    c.toNat == 0x7f

def readAuthority? (secure : Bool) (cs : List Char) : Option (String × Nat) := do
  let cs := (cs.reverse.takeWhile (· != '@')).reverse
  let host := (cs.takeWhile (· != ':')).map Char.toLower
  let endpoint ← readEndpoint? secure ((cs.dropWhile (· != ':')).drop 1)
  if host.isEmpty || host.any isHostForbidden then none else some (String.ofList host, endpoint)

def readScheme? (cs : List Char) : Option (Bool × List Char) :=
  let scheme := (cs.takeWhile (· != ':')).map Char.toLower
  match cs.dropWhile (· != ':') with
  | [] => none
  | _ :: rest =>
    if scheme = "http".toList then some (false, rest)
    else if scheme = "https".toList then some (true, rest)
    else none

/-- The characters of an address. Controls and blanks around it do not count, nor do line breaks and
tabs in it. -/
def characters (text : String) : List Char :=
  let isAround (c : Char) : Bool := c.toNat ≤ 0x20
  let cs := ((text.toList.dropWhile isAround).reverse.dropWhile isAround).reverse
  cs.filter fun c => c != '\t' && c != '\n' && c != '\r'

def foreign? (text : String) : Option String :=
  let cs := characters text
  let scheme := (cs.takeWhile (· != ':')).map Char.toLower
  match scheme, cs.dropWhile (· != ':') with
  | first :: others, ':' :: rest =>
    let isOther (c : Char) : Bool := c.isAlphanum || c == '+' || c == '-' || c == '.'
    if first.isAlpha && others.all isOther && (readScheme? cs).isNone then
      some (String.ofList (scheme ++ ':' :: escape isControl rest))
    else none
  | _, _ => none

def read? (text : String) : Option Url := do
  let (secure, rest) ← readScheme? (characters text)
  let rest := rest.dropWhile isSlash
  let isEnd (c : Char) : Bool := isSlash c || c == '?' || c == '#'
  let (host, endpoint) ← readAuthority? secure (rest.takeWhile fun c => !isEnd c)
  let rest := rest.dropWhile fun c => !isEnd c
  let path := rest.takeWhile fun c => c != '?' && c != '#'
  let rest := rest.dropWhile fun c => c != '?' && c != '#'
  let query? := match rest with
    | '?' :: q => some (escape isQuerySpecial (q.takeWhile (· != '#')))
    | _ => none
  let fragment? := match rest.dropWhile (· != '#') with
    | _ :: f => some (escape isFragmentSpecial f)
    | [] => none
  return { secure, host, endpoint, path := readPath path, query?, fragment? }

end Url

end Muster.Http
