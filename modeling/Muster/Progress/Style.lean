import Muster.Progress.Entry

/-! Control sequences for terminals: colours, and the moves that take back lines. -/

namespace Muster.Progress

/-- How coloured text is written. A muted palette keeps the sequences but names no colour. -/
inductive Palette where
  | plain
  | colours
  | muted
  deriving DecidableEq, Repr, Inhabited

def sequence (parameters : String) : String := "\x1b[" ++ parameters

namespace Palette

def choose (p : Palette) (colour : Nat) : String :=
  match p with
  | .plain => ""
  | .colours => sequence ("38;5;" ++ toString colour ++ "m")
  | .muted => sequence "m"

def release : Palette → String
  | .plain => ""
  | .colours => sequence "39m"
  | .muted => sequence "m"

def paint (p : Palette) (colour : Nat) (text : String) : String :=
  p.choose colour ++ text ++ p.release

def paintBold (p : Palette) (colour : Nat) (text : String) : String :=
  match p with
  | .plain => text
  | _ => p.choose colour ++ sequence "1m" ++ text ++ sequence "0m"

end Palette

def detailsColour : Nat := 8

def elapsedColour : Nat := 14

def failureColour : Nat := 9

def Stage.colour : Stage → Nat
  | .waiting => 8
  | .running _ => 12
  | .ended _ .success => 10
  | .ended _ .failed => failureColour
  | .ended _ .warning => 11

/-- Takes back the line of the cursor and moves to the one above. -/
def eraseLine : String := sequence "2K" ++ sequence "1A"

end Muster.Progress
