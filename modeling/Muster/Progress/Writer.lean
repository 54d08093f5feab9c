import Muster.Progress.Sink

/-! Places that text is written to. Each write may fail, and so may the flush after it. -/

namespace Muster.Progress

/-- How a place is written to. Both tell whether they succeeded. -/
structure Writer (ω : Type) where
  write : ω → String → ω × Bool
  flush : ω → ω × Bool

/-- Writes texts up to the first that fails. -/
def Writer.writeAll {ω : Type} (w : Writer ω) : List String → ω → ω × Bool
  | [], out => (out, true)
  | text :: texts, out =>
    match w.write out text with
    | (out, false) => (out, false)
    | (out, true) => w.writeAll texts out

/-- A sink keeps nothing back that could be flushed. -/
def Sink.writer : Writer Sink where
  write := Sink.write
  flush sink := (sink, true)

end Muster.Progress
