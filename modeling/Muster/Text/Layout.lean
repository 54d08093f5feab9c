import Muster.Text.Blank

/-! Laying text out in a given number of columns: cutting or padding one line, breaking a text into
lines, and hanging a prefix in front of them. A character takes one column. -/

namespace Muster.Text

def ellipsis : List Char := ['.', '.', '.']

/-- The line in exactly `width` columns: newlines become blanks, a longer line is cut and ends with
an ellipsis if there is room for one, a shorter line is padded. -/
def fit (cs : List Char) (width : Nat) : List Char :=
  let flat := cs.map fun c => if c = '\n' then ' ' else c
  if flat.length ≤ width then flat ++ List.replicate (width - flat.length) ' '
  else if width ≤ ellipsis.length then flat.take width
  else flat.take (width - ellipsis.length) ++ ellipsis

/-- A word cut into pieces of `width` characters, and what is left after the last of them. -/
def chop (width : Nat) (word : List Char) : List (List Char) × List Char :=
  if _h : width = 0 ∨ word.length ≤ width then ([], word)
  else
    let (pieces, last) := chop width (word.drop width)
    (word.take width :: pieces, last)
termination_by word.length
decreasing_by simp only [List.length_drop]; omega

/-- Fills lines with words, the first of them already holding `current`. A word that does not fit
starts a line of its own, where it is cut if it is too long for any line. -/
def fill (width : Nat) : List (List Char) → List Char → List (List Char)
  | [], current => [current]
  | word :: rest, current =>
    if current.isEmpty then
      let (pieces, last) := chop width word
      pieces ++ fill width rest last
    else if current.length + 1 + word.length ≤ width then
      fill width rest (current ++ ' ' :: word)
    else
      let (pieces, last) := chop width word
      current :: pieces ++ fill width rest last

/-- The text broken into lines of at most `width` characters, between words where possible. Width
zero counts as one. -/
def wrap (text : List Char) (width : Nat) : List (List Char) :=
  (lines text).flatMap fun line => fill (max width 1) (words line) []

/-- The first line behind `lead`, the others behind as many blanks. -/
def hang (lead : List Char) : List (List Char) → List (List Char)
  | [] => []
  | l :: ls => (lead ++ l) :: ls.map (List.replicate lead.length ' ' ++ ·)

def paragraph (text lead : List Char) (width : Nat) : List (List Char) :=
  (hang lead (wrap text (width - lead.length))).map fun l => fit l width

end Muster.Text
