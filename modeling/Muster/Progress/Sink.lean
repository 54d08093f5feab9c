/-! A place that text is written to, and that may run full. -/

namespace Muster.Progress

/-- The text written so far, and how many bytes there is still room for, if that is limited. -/
structure Sink where
  text : String := ""
  room? : Option Nat := none
  deriving DecidableEq, Repr, Inhabited

namespace Sink

/-- The characters of a text that fit in `room` bytes. The first that does not fit leaves a
replacement character if some of its bytes still do. -/
def cut : Nat → List Char → List Char
  | _, [] => []
  | room, c :: cs =>
    if c.utf8Size ≤ room then c :: cut (room - c.utf8Size) cs
    else if room = 0 then [] else ['\ufffd']

def write (s : Sink) (text : String) : Sink × Bool :=
  match s.room? with
  | none => ({ s with text := s.text ++ text }, true)
  | some room =>
    if text.utf8ByteSize ≤ room then
      (⟨s.text ++ text, some (room - text.utf8ByteSize)⟩, true)
    else (⟨s.text ++ String.ofList (cut room text.toList), some 0⟩, false)

end Sink

end Muster.Progress
