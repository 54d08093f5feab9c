import Muster.Text.Case

/-! Lowercasing a text in parts. Main statement: the lowercase of a part depends on what follows it only
through a sigma that ends a word, unless more of the word comes. -/

namespace Muster.Text

section Contexts

variable {kind : Char → Bool} {c : Char} {cs after : List Char}

/-- The first character that case rules do not pass over is of the given kind. -/
def meets (kind : Char → Bool) (cs : List Char) : Bool :=
  match cs.dropWhile (inRuns caseIgnorableRuns) with
  | [] => false
  | c :: _ => kind c

theorem meetsCased_eq (cs : List Char) : meetsCased cs = meets (inRuns casedRuns) cs := rfl

theorem meets_cons : meets kind (c :: cs) =
    if inRuns caseIgnorableRuns c then meets kind cs else kind c := by
  by_cases hc : inRuns caseIgnorableRuns c = true
  · simp [meets, hc]
  · simp [meets, hc]

theorem meets_append_of_ignorable (h : ∀ c ∈ cs, inRuns caseIgnorableRuns c = true) :
    meets kind (cs ++ after) = meets kind after := by
  induction cs with
  | nil => rfl
  | cons c cs ih =>
    rw [List.cons_append, meets_cons, if_pos (h c List.mem_cons_self)]
    exact ih fun d hd => h d (List.mem_cons_of_mem c hd)

theorem meets_append_of_not_ignorable (h : ¬ ∀ c ∈ cs, inRuns caseIgnorableRuns c = true) :
    meets kind (cs ++ after) = meets kind cs := by
  induction cs with
  | nil => simp at h
  | cons c cs ih =>
    rw [List.cons_append, meets_cons, meets_cons]
    by_cases hc : inRuns caseIgnorableRuns c = true
    · simp only [hc, if_true]
      exact ih fun hall => h (List.forall_mem_cons.mpr ⟨hc, hall⟩)
    · simp only [hc, if_false, Bool.false_eq_true]

end Contexts

variable {before cs start after after' : List Char} {c : Char}

/-- The lowercase of a character between others. Those before are given nearest first. -/
def lowerAt (before : List Char) (c : Char) (after : List Char) : List Char :=
  if c = 'Σ' then if meetsCased before && !meetsCased after then ['ς'] else ['σ']
  else lowerChar c

theorem lowerAfter_cons (before : List Char) (c : Char) (cs : List Char) :
    lowerAfter before (c :: cs) = lowerAt before c cs ++ lowerAfter (c :: before) cs := rfl

/-- The lowercase of a part of a text, between what stands before it and what comes after it. -/
def lowerWithin (before : List Char) : List Char → List Char → List Char
  | [], _ => []
  | c :: cs, after => lowerAt before c (cs ++ after) ++ lowerWithin (c :: before) cs after

theorem lowerAfter_append (before cs after : List Char) :
    lowerAfter before (cs ++ after) =
      lowerWithin before cs after ++ lowerAfter (cs.reverse ++ before) after := by
  induction cs generalizing before with
  | nil => rfl
  | cons c cs ih =>
    rw [List.cons_append, lowerAfter_cons, ih, lowerWithin, List.append_assoc,
      List.reverse_cons, List.append_assoc, List.singleton_append]

/-- One letter alone has two in lowercase. -/
theorem lowerAt_of_ne (h : c ≠ 'İ') : ∃ d, lowerAt before c after = [d] := by
  unfold lowerAt
  split
  · split
    · exact ⟨'ς', rfl⟩
    · exact ⟨'σ', rfl⟩
  · rw [lowerChar, if_neg h]
    split
    · exact ⟨_, rfl⟩
    · exact ⟨c, rfl⟩

theorem lowerWithin_congr
    (h : ∀ front back, cs = front ++ 'Σ' :: back → meetsCased (front.reverse ++ before) = true →
      meetsCased (back ++ after) = meetsCased (back ++ after')) :
    lowerWithin before cs after = lowerWithin before cs after' := by
  induction cs generalizing before with
  | nil => rfl
  | cons c cs ih =>
    have hhead : lowerAt before c (cs ++ after) = lowerAt before c (cs ++ after') := by
      by_cases hc : c = 'Σ'
      · subst hc
        by_cases hcased : meetsCased before = true
        · have hsame := h [] cs rfl hcased
          simp only [lowerAt, if_true, hsame]
        · simp [lowerAt, hcased]
      · simp only [lowerAt, if_neg hc]
    have htail : lowerWithin (c :: before) cs after = lowerWithin (c :: before) cs after' := by
      refine ih fun front back hcs hcased => h (c :: front) back (by rw [hcs, List.cons_append]) ?_
      rwa [List.reverse_cons, List.append_assoc, List.singleton_append]
    rw [lowerWithin, lowerWithin, hhead, htail]

/-- A word that ends in a sigma, if no more of the word comes. -/
def SigmaOpen (start : List Char) : Prop :=
  ∃ front back, start = front ++ 'Σ' :: back ∧
    (∀ c ∈ back, inRuns caseIgnorableRuns c = true) ∧ meetsCased front.reverse = true

theorem sigma_not_ignorable : inRuns caseIgnorableRuns 'Σ' = false := by decide +kernel

theorem not_mem_sigma (h : ∀ c ∈ cs, inRuns caseIgnorableRuns c = true) : 'Σ' ∉ cs := by
  intro hmem
  have hignorable := h 'Σ' hmem
  rw [sigma_not_ignorable] at hignorable
  exact absurd hignorable (by decide)

theorem lowerWithin_of_not_open (h : ¬ SigmaOpen start) :
    lowerWithin [] start after = lowerWithin [] start after' := by
  refine lowerWithin_congr fun front back hstart hcased => ?_
  rw [List.append_nil] at hcased
  have hmet : ¬ ∀ c ∈ back, inRuns caseIgnorableRuns c = true := fun hall =>
    h ⟨front, back, hstart, hall, hcased⟩
  rw [meetsCased_eq, meetsCased_eq, meets_append_of_not_ignorable hmet,
    meets_append_of_not_ignorable hmet]

theorem lowerWithin_before_sigma (front : List Char) :
    lowerWithin before front ('Σ' :: after) = lowerWithin before front ('Σ' :: after') := by
  refine lowerWithin_congr fun _ back _ _ => ?_
  by_cases hall : ∀ c ∈ back, inRuns caseIgnorableRuns c = true
  · rw [meetsCased_eq, meetsCased_eq, meets_append_of_ignorable hall,
      meets_append_of_ignorable hall, meets_cons, meets_cons, sigma_not_ignorable]
    rfl
  · rw [meetsCased_eq, meetsCased_eq, meets_append_of_not_ignorable hall,
      meets_append_of_not_ignorable hall]

end Muster.Text
