import Muster.Text.CaseTable

/-! Lowercasing by the full Unicode rules: one letter may become two, and a capital sigma at the end of
a word becomes the final small sigma. -/

namespace Muster.Text

def lowerChar (c : Char) : List Char :=
  if c = '\u0130' then ['i', '\u0307']
  else match lowercaseSpans.find? fun s => s.holds c.toNat with
    | some s => [Char.ofNat (c.toNat + s.shift).toNat]
    | none => [c]

/-- Whether the first character that case rules do not pass over is cased. -/
def meetsCased (cs : List Char) : Bool :=
  match cs.dropWhile (inRuns caseIgnorableRuns) with
  | [] => false
  | c :: _ => inRuns casedRuns c

/-- The lowercase of a text whose preceding characters, nearest first, are `before`. -/
def lowerAfter (before : List Char) : List Char → List Char
  | [] => []
  | c :: cs =>
    (if c = 'Σ' then
      if meetsCased before && !meetsCased cs then ['ς'] else ['σ']
    else lowerChar c) ++ lowerAfter (c :: before) cs

def lower (s : String) : String :=
  String.ofList (lowerAfter [] s.toList)

end Muster.Text
