import Muster.About
import Muster.Http.Reference

/-! Requests, answers to them, and following the answers that only say where to ask instead. -/

namespace Muster.Http

inductive Method where
  | get
  | post
  | delete
  deriving DecidableEq, Repr

def Method.name : Method → String
  | .get => "GET"
  | .post => "POST"
  | .delete => "DELETE"

/-- A request. A body is always a structured value in text. -/
structure Request where
  method : Method
  url : Url
  authorization? : Option String
  body? : Option String := none
  deriving DecidableEq, Repr

def mediaType : String := "application/json"

def userAgent : String := programName ++ "/" ++ programVersion

structure Response where
  status : Nat
  headers : List (String × String) := []
  body : String := ""
  deriving DecidableEq, Repr

/-- Someone who answers requests, or does not, and remembers them. A request is made at some time. -/
def Peer (σ : Type) : Type := Request → Nat → σ → Option Response × σ

namespace Response

def isSuccess (r : Response) : Bool := 200 ≤ r.status && r.status < 300

/-- The text of the body; some answers have none, whatever is sent. A byte order mark in front does not
count. -/
def text (r : Response) : String :=
  if r.status = 204 ∨ r.status = 304 then ""
  else match r.body.toList with
    | '\ufeff' :: cs => String.ofList cs
    | _ => r.body

def header? (r : Response) (name : String) : Option String :=
  (r.headers.find? fun h => String.ofList (h.1.toList.map Char.toLower) == name).map (·.2)

end Response

/-- The request that an answer asks to make instead, to an address that it names. After most answers of
this kind a request with a body becomes one without. -/
def Request.redirected? (q : Request) (r : Response) : Option Request := do
  let plain : Request := { q with method := .get, body? := none }
  let next ←
    if r.status = 301 ∨ r.status = 302 then some (if q.method = .post then plain else q)
    else if r.status = 303 then some plain
    else if r.status = 307 ∨ r.status = 308 then some q
    else none
  let url ← (← Reference.read? (← r.header? "location")).resolve? q.url
  let sameHost := url.host == q.url.host && url.endpoint == q.url.endpoint
  return { next with url, authorization? := if sameHost then q.authorization? else none }

def redirectLimit : Nat := 10

/-- Makes a request, and those that the answers ask for instead, of which `limit` are left. Gives the
last answer or why there is none, and how many requests were made. -/
def follow {σ : Type} (peer : Peer σ) (first : Url) (now : Nat) :
    Nat → Request → σ → (Except String Response × Nat) × σ
  | limit, q, s =>
    match peer q now s with
    | (none, s) => ((.error ("error sending request for url (" ++ first.text ++ ")"), 1), s)
    | (some r, s) =>
      match q.redirected? r with
      | none => ((.ok r, 1), s)
      | some next =>
        match limit with
        | 0 => ((.error ("error following redirect for url (" ++ q.url.text ++ ")"), 1), s)
        | limit + 1 =>
          let ((result, count), s) := follow peer first now limit next s
          ((result, count + 1), s)

def send {σ : Type} (peer : Peer σ) (q : Request) (now : Nat) (s : σ) :
    (Except String Response × Nat) × σ :=
  follow peer q.url now redirectLimit q s

end Muster.Http
