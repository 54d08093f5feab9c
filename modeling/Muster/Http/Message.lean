import Muster.Http.Exchange

/-! Requests and answers as the bytes that are sent. Every connection is for one request, and an answer
ends where its connection does. -/

namespace Muster.Http

def line (text : String) : String := text ++ "\r\n"

def Request.message (q : Request) : String :=
  let body := q.body?.getD ""
  let headers :=
    [("host", some q.url.authority), ("authorization", q.authorization?),
      ("accept", some mediaType), ("user-agent", some userAgent),
      ("content-type", q.body?.map fun _ => mediaType),
      ("content-length", if q.method = .post then some (toString body.utf8ByteSize) else none),
      ("connection", some "close")]
  line (q.method.name ++ " " ++ String.ofList q.url.target ++ " HTTP/1.1") ++
    String.join (headers.filterMap fun h => h.2.map fun value => line (h.1 ++ ": " ++ value)) ++
    line "" ++ body

/-- The bytes before the first empty line, and those behind it. -/
def splitHead? : List UInt8 → Option (List UInt8 × List UInt8)
  | [] => none
  | 13 :: 10 :: 13 :: 10 :: body => some ([], body)
  | b :: bs => (splitHead? bs).map fun (head, body) => (b :: head, body)

def splitLine (bs : List UInt8) : List UInt8 × List UInt8 :=
  ((bs.takeWhile (· != 10)).filter (· != 13), (bs.dropWhile (· != 10)).drop 1)

def asciiText (bs : List UInt8) : List Char := bs.map fun b => Char.ofNat b.toNat

/-- The lines of a head, at most `fuel`. -/
def headLines : Nat → List UInt8 → List (List Char)
  | 0, _ => []
  | fuel + 1, bs =>
    if bs.isEmpty then []
    else
      let (first, rest) := splitLine bs
      asciiText first :: headLines fuel rest

def statusOf? (first : List Char) : Option Nat :=
  let code := ((first.dropWhile (· != ' ')).drop 1).takeWhile (· != ' ')
  if "HTTP/".toList.isPrefixOf first && code.length = 3 then Text.count? code else none

def headerOf (cs : List Char) : String × String :=
  let value := (cs.dropWhile (· != ':')).drop 1
  (String.ofList (cs.takeWhile (· != ':')),
    String.ofList ((value.dropWhile (· == ' ')).reverse.dropWhile (· == ' ')).reverse)

/-- The bytes of a body that comes in at most `fuel` chunks, each behind its size. -/
def chunks? : Nat → List UInt8 → Option (List UInt8)
  | 0, _ => none
  | fuel + 1, bs => do
    let (first, rest) := splitLine bs
    let digits := (asciiText first).takeWhile fun c => (Text.hexValue? c).isSome
    if digits.isEmpty then none
    let size := Text.ofDigits 16 digits
    if size = 0 then some []
    else if rest.length < size then none
    else
      let more ← chunks? fuel (splitLine (rest.drop size)).2
      return rest.take size ++ more

def Response.bodyOf? (r : Response) (bs : List UInt8) : Option (List UInt8) :=
  if r.header? "transfer-encoding" = some "chunked" then chunks? (bs.length + 1) bs
  else match (r.header? "content-length").bind fun value => Text.count? value.toList with
    | some size => if bs.length < size then none else some (bs.take size)
    | none => some bs

def Response.ofBytes? (bs : List UInt8) : Option Response := do
  let (head, rest) ← splitHead? bs
  match headLines (head.length + 1) head with
  | [] => none
  | first :: others =>
    let r : Response := { status := ← statusOf? first, headers := others.map headerOf }
    let body ← if r.status = 204 ∨ r.status = 304 then some [] else r.bodyOf? rest
    return { r with body := ← String.fromUTF8? ⟨body.toArray⟩ }

end Muster.Http
