/-! Patterns in which a star stands for any run of characters and a question mark for any one. -/

namespace Muster.Glob

def isPattern (cs : List Char) : Bool := cs.any fun c => c == '*' || c == '?'

/-- The texts that a pattern stands for. -/
def Language : List Char → List Char → Prop
  | [], text => text = []
  | '*' :: pattern, text => ∃ run rest, text = run ++ rest ∧ Language pattern rest
  | '?' :: pattern, text => ∃ c rest, text = c :: rest ∧ Language pattern rest
  | c :: pattern, text => ∃ rest, text = c :: rest ∧ Language pattern rest

/-- Matches the whole text from left to right. After a mismatch the last star met, of which `star` holds
the pattern behind it and the text it has not taken, takes one character more. -/
def search (pattern text : List Char) (star : Option (List Char × List Char)) : Bool :=
  match text with
  | [] => pattern.all (· == '*')
  | c :: cs =>
    if _h : pattern.head? = some '*' then search pattern.tail (c :: cs) (some (pattern.tail, c :: cs))
    else if _h : pattern.head? = some '?' ∨ pattern.head? = some c then search pattern.tail cs star
    else match star with
      | some (p, _ :: t) => search p t (some (p, t))
      | _ => false
termination_by (match star with
  | none => text.length + 1
  | some (_, t) => max t.length text.length, pattern.length)
decreasing_by
  · have : pattern.tail.length < pattern.length := by
      cases pattern with
      | nil => simp at _h
      | cons p ps => simp
    simp only [Prod.lex_def, List.length_cons]
    cases star with
    | none => simp only; omega
    | some s => simp only; omega
  · have : pattern.tail.length < pattern.length := by
      cases pattern with
      | nil => simp at _h
      | cons p ps => simp
    simp only [Prod.lex_def, List.length_cons]
    cases star with
    | none => simp only; omega
    | some s => simp only; omega
  · simp only [Prod.lex_def, List.length_cons]
    omega

def isMatch (pattern text : List Char) : Bool := search pattern text none

end Muster.Glob
