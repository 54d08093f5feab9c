import Muster.Http.Exchange

/-! A host that plays a part: it answers the requests that it gets from a list, in order, and remembers
them. -/

namespace Muster.Rehearsal

/-- An answer, and whether the run is interrupted just before it is given. -/
structure Cue where
  response : Http.Response
  interrupts : Bool := false
  deriving Repr

/-- A host: the answers that are left, the requests received, each with its time and the latest first,
and when the first answer came that was to interrupt the run. -/
structure Host where
  name : String
  endpoint : Nat
  answers : List Cue := []
  received : List (Nat × Http.Request) := []
  interrupted? : Option Nat := none
  deriving Repr

namespace Host

def isAt (h : Host) (url : Http.Url) : Bool :=
  !url.secure && url.host == h.name && url.endpoint == h.endpoint

/-- Receives a request. An answer comes later than its request. -/
def receive (q : Http.Request) (now : Nat) (h : Host) : Option Http.Response × Host :=
  let heard := { h with received := (now, q) :: h.received }
  match h.answers with
  | [] => (none, heard)
  | cue :: answers =>
    (some cue.response,
      { heard with
        answers
        interrupted? := h.interrupted? <|> if cue.interrupts then some (now + 1) else none })

def peer : Http.Peer Host := fun q now h => if h.isAt q.url then h.receive q now else (none, h)

def requests (h : Host) : List Http.Request := h.received.reverse.map (·.2)

end Host

end Muster.Rehearsal
