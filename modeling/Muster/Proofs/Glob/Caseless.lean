import Muster.Match
import Muster.Proofs.Glob.Search
import Muster.Proofs.Text.Case

/-! Patterns and texts in lowercase. Main statement: a text that fits a pattern still fits it in lowercase,
unless a question mark stands for a letter that has two in lowercase, or what a wildcard stands for
decides how a sigma before or behind it is written. -/

namespace Muster

namespace Glob

open Text

section Wildcards

variable {before before' after after' pattern text cs : List Char} {c : Char}

def isWildcard (c : Char) : Bool := c == '*' || c == '?'

theorem isWildcard_iff : isWildcard c = true ↔ c = '*' ∨ c = '?' := by
  simp [isWildcard]

theorem not_ignorable_of_isWildcard (h : isWildcard c = true) :
    inRuns caseIgnorableRuns c = false := by
  rcases isWildcard_iff.mp h with rfl | rfl
  · decide +kernel
  · decide +kernel

theorem not_cased_of_isWildcard (h : isWildcard c = true) : inRuns casedRuns c = false := by
  rcases isWildcard_iff.mp h with rfl | rfl
  · decide +kernel
  · decide +kernel

theorem not_meets_wildcard (h : meetsCased cs = true) : meets isWildcard cs = false := by
  rw [meetsCased_eq] at h
  induction cs with
  | nil => rfl
  | cons c cs ih =>
    rw [meets_cons] at h ⊢
    by_cases hc : inRuns caseIgnorableRuns c = true
    · simp only [hc, if_true] at h ⊢
      exact ih h
    · simp only [hc, if_false, Bool.false_eq_true] at h ⊢
      by_contra hwild
      have hnot := not_cased_of_isWildcard (Bool.not_eq_false _ ▸ hwild)
      rw [hnot] at h
      exact absurd h (by decide)

theorem lowerAt_of_isWildcard (h : isWildcard c = true) : lowerAt before c after = [c] := by
  rcases isWildcard_iff.mp h with rfl | rfl
  · have hlower : lowerChar '*' = ['*'] := by decide +kernel
    rw [lowerAt, if_neg (by decide), hlower]
  · have hlower : lowerChar '?' = ['?'] := by decide +kernel
    rw [lowerAt, if_neg (by decide), hlower]

/-- As far as a pattern decides it, what is met in a text is cased if what is met in the pattern is. -/
def Mirrors (pattern text : List Char) : Prop :=
  meets isWildcard pattern = false → meetsCased text = meetsCased pattern

theorem Mirrors.cons (h : Mirrors pattern text) (c : Char) : Mirrors (c :: pattern) (c :: text) := by
  intro hnone
  rw [meets_cons] at hnone
  rw [meetsCased_eq, meetsCased_eq, meets_cons, meets_cons]
  by_cases hc : inRuns caseIgnorableRuns c = true
  · simp only [hc, if_true] at hnone ⊢
    exact h hnone
  · simp only [hc, if_false, Bool.false_eq_true]

theorem mirrors_of_isWildcard (h : isWildcard c = true) : Mirrors (c :: pattern) text := by
  intro hnone
  rw [meets_cons, not_ignorable_of_isWildcard h, if_neg (by decide), h] at hnone
  exact absurd hnone (by decide)

/-- No wildcard decides how a sigma between these characters is written. -/
def Settled (before after : List Char) : Prop :=
  meetsCased after = true ∨ (meets isWildcard before = false ∧
    (meetsCased before = true → meets isWildcard after = false))

instance : Decidable (Settled before after) := inferInstanceAs (Decidable (_ ∨ _))

theorem lowerAt_eq (hc : c = 'Σ' → Settled before after) (hbefore : Mirrors before before')
    (hafter : Mirrors after after') : lowerAt before c after = lowerAt before' c after' := by
  unfold lowerAt
  by_cases hsigma : c = 'Σ'
  · simp only [hsigma, if_true]
    rcases hc hsigma with hcased | ⟨hnone, hdecided⟩
    · have hcased' := hafter (not_meets_wildcard hcased)
      simp [hcased', hcased]
    · have hsame := hbefore hnone
      by_cases hcased : meetsCased before = true
      · have hsame' := hafter (hdecided hcased)
        rw [hsame, hsame']
      · simp [hsame, hcased]
  · simp only [hsigma, if_false]

end Wildcards

/-- A text fits a pattern, whose question marks stand for allowed characters. -/
inductive Stands (allowed : Char → Prop) : List Char → List Char → Prop where
  | nil : Stands allowed [] []
  | run {pattern text : List Char} (run : List Char) :
    Stands allowed pattern text → Stands allowed ('*' :: pattern) (run ++ text)
  | one {pattern text : List Char} {c : Char} :
    allowed c → Stands allowed pattern text → Stands allowed ('?' :: pattern) (c :: text)
  | same {pattern text : List Char} (c : Char) :
    Stands allowed pattern text → Stands allowed (c :: pattern) (c :: text)

variable {allowed : Char → Prop} {before before' pattern text : List Char}

theorem language_same (c : Char) (h : Language pattern text) :
    Language (c :: pattern) (c :: text) := by
  by_cases hc : c = '*'
  · subst hc
    exact ⟨['*'], text, rfl, h⟩
  · exact (language_cons hc).mpr ⟨c, text, rfl, .inr rfl, h⟩

theorem language_same_append (cs : List Char) (h : Language pattern text) :
    Language (cs ++ pattern) (cs ++ text) := by
  induction cs with
  | nil => exact h
  | cons c cs ih => exact language_same c ih

theorem Stands.language (h : Stands allowed pattern text) : Language pattern text := by
  induction h with
  | nil => rfl
  | run run _ ih => exact ⟨run, _, rfl, ih⟩
  | one _ _ ih => exact ⟨_, _, rfl, ih⟩
  | same c _ ih => exact language_same c ih

theorem stands_of_language (h : Language pattern text)
    (hallowed : '?' ∈ pattern → ∀ c ∈ text, allowed c) : Stands allowed pattern text := by
  induction pattern generalizing text with
  | nil =>
    obtain rfl : text = [] := h
    exact .nil
  | cons p pattern ih =>
    have hlater : '?' ∈ pattern → ∀ c ∈ text, allowed c := fun hmem =>
      hallowed (List.mem_cons_of_mem p hmem)
    by_cases hp : p = '*'
    · subst hp
      obtain ⟨run, rest, rfl, hrest⟩ := h
      exact .run run (ih hrest fun hmem c hc => hlater hmem c (List.mem_append_right _ hc))
    · obtain ⟨c, rest, rfl, hmeets, hrest⟩ := (language_cons hp).mp h
      have hstands := ih hrest fun hmem d hd => hlater hmem d (List.mem_cons_of_mem c hd)
      rcases hmeets with rfl | rfl
      · exact .one (hallowed List.mem_cons_self c List.mem_cons_self) hstands
      · exact .same p hstands

theorem language_iff_stands : Language pattern text ↔ Stands (fun _ => True) pattern text :=
  ⟨fun h => stands_of_language h fun _ _ _ => trivial, Stands.language⟩

theorem Stands.mirrors (h : Stands allowed pattern text) : Mirrors pattern text := by
  induction h with
  | nil => exact fun _ => rfl
  | run => exact mirrors_of_isWildcard rfl
  | one => exact mirrors_of_isWildcard rfl
  | same c _ ih => exact ih.cons c

theorem Stands.eq (h : Stands allowed pattern text) (hplain : isPattern pattern = false) :
    text = pattern := by
  induction h with
  | nil => rfl
  | run => simp [isPattern] at hplain
  | one => simp [isPattern] at hplain
  | same c _ ih =>
    rw [isPattern, List.any_cons, Bool.or_eq_false_iff] at hplain
    rw [ih hplain.2]

/-- Each sigma of a pattern is settled by the characters around it. -/
def SigmasSettled (before : List Char) : List Char → Prop
  | [] => True
  | c :: cs => (c = 'Σ' → Settled before cs) ∧ SigmasSettled (c :: before) cs

instance SigmasSettled.decidable :
    (before pattern : List Char) → Decidable (SigmasSettled before pattern)
  | _, [] => inferInstanceAs (Decidable True)
  | before, c :: cs =>
    have := SigmasSettled.decidable (c :: before) cs
    inferInstanceAs (Decidable (_ ∧ _))

theorem Stands.lower (h : Stands (· ≠ 'İ') pattern text) (hbefore : Mirrors before before')
    (hsigma : SigmasSettled before pattern) :
    Language (lowerAfter before pattern) (lowerAfter before' text) := by
  induction h generalizing before before' with
  | nil => rfl
  -- behind a wildcard the pattern says nothing of what has been met in the text
  | run run _ ih =>
    rw [lowerAfter_cons, lowerAt_of_isWildcard rfl, lowerAfter_append]
    exact ⟨_, _, rfl, ih (mirrors_of_isWildcard rfl) hsigma.2⟩
  | @one pattern text c hc _ ih =>
    obtain ⟨d, hd⟩ := @lowerAt_of_ne before' text c hc
    rw [lowerAfter_cons, lowerAt_of_isWildcard rfl, lowerAfter_cons, hd]
    exact ⟨d, _, rfl, ih (mirrors_of_isWildcard rfl) hsigma.2⟩
  | @same pattern text c hstands ih =>
    rw [lowerAfter_cons, lowerAfter_cons, lowerAt_eq hsigma.1 hbefore hstands.mirrors]
    exact language_same_append _ (ih (hbefore.cons c) hsigma.2)

/-- Every literal character of a pattern is found in the text. -/
theorem count_le_of_language {c : Char} (hc : isWildcard c = false) (h : Language pattern text) :
    pattern.count c ≤ text.count c := by
  have hstands := language_iff_stands.mp h
  clear h
  induction hstands with
  | nil => exact Nat.le_refl _
  | run run _ ih =>
    have hne : ¬ '*' = c := by
      rintro rfl
      simp [isWildcard] at hc
    rw [List.count_cons_of_ne hne, List.count_append]
    omega
  | @one pattern text d _ _ ih =>
    have hne : ¬ '?' = c := by
      rintro rfl
      simp [isWildcard] at hc
    rw [List.count_cons_of_ne hne, List.count_cons]
    omega
  | same d _ ih =>
    rw [List.count_cons, List.count_cons]
    omega

section Ends

variable {before start : List Char}

theorem lowerAfter_star : lowerAfter before ['*'] = ['*'] := by
  rw [lowerAfter_cons, lowerAt_of_isWildcard rfl]
  rfl

theorem lowerAfter_letter : lowerAfter before ['a'] = ['a'] := by
  have hlower : lowerChar 'a' = ['a'] := by decide +kernel
  rw [lowerAfter_cons, lowerAt, if_neg (by decide), hlower]
  rfl

/-- A sigma at the end of a word is the final one before a star, but not before a letter. -/
theorem lower_of_open (h : SigmaOpen start) : ∃ front back,
    lowerAfter [] (start ++ ['*']) = front ++ 'ς' :: back ++ ['*'] ∧
    lowerAfter [] (start ++ ['a']) = front ++ 'σ' :: back ++ ['a'] := by
  obtain ⟨front, back, rfl, hall, hcased⟩ := h
  have hstar : meetsCased (back ++ ['*']) = false := by
    rw [meetsCased_eq, meets_append_of_ignorable hall]
    decide +kernel
  have hletter : meetsCased (back ++ ['a']) = true := by
    rw [meetsCased_eq, meets_append_of_ignorable hall]
    decide +kernel
  have hfront : lowerWithin [] front ('Σ' :: (back ++ ['a'])) =
      lowerWithin [] front ('Σ' :: (back ++ ['*'])) := lowerWithin_before_sigma front
  have hback : lowerWithin ('Σ' :: front.reverse) back ['a'] =
      lowerWithin ('Σ' :: front.reverse) back ['*'] := by
    refine lowerWithin_congr fun l r hsplit _ => ?_
    exact absurd (hsplit ▸ List.mem_append_right l List.mem_cons_self) (not_mem_sigma hall)
  refine ⟨lowerWithin [] front ('Σ' :: back ++ ['*']),
    lowerWithin ('Σ' :: front.reverse) back ['*'], ?_, ?_⟩
  · rw [List.append_assoc, lowerAfter_append, List.append_nil, List.cons_append, lowerAfter_cons,
      lowerAfter_append, lowerAfter_star]
    simp [lowerAt, hcased, hstar]
  · rw [List.append_assoc, lowerAfter_append, List.append_nil, List.cons_append, lowerAfter_cons,
      lowerAfter_append, lowerAfter_letter, hback]
    simp [lowerAt, hcased, hletter, hfront]

end Ends

end Glob

namespace Strength

open Text Glob

variable {arg name : String}

theorem lower_eq_iff : lower arg = lower name ↔
    lowerAfter [] arg.toList = lowerAfter [] name.toList := String.ofList_inj

theorem isMatch_lower : isMatch (lower arg).toList (lower name).toList = true ↔
    Glob.Language (lowerAfter [] arg.toList) (lowerAfter [] name.toList) := by
  rw [lower, lower, String.toList_ofList, String.toList_ofList]
  exact search_eq_true_iff trivial

theorem ofName_ne_none_iff : ofName arg name ≠ .none ↔
    lowerAfter [] arg.toList = lowerAfter [] name.toList ∨
    isPattern arg.toList = true ∧
      Glob.Language (lowerAfter [] arg.toList) (lowerAfter [] name.toList) := by
  rw [← isMatch_lower, ← lower_eq_iff]
  unfold ofName
  split
  · simp [*]
  · split
    · simp [*]
    · simp [*]

theorem ofName_eq_none {arg' name' : List Char} (harg : lowerAfter [] arg.toList = arg')
    (hname : lowerAfter [] name.toList = name') (hne : arg' ≠ name')
    (hlanguage : ¬ Glob.Language arg' name') : ofName arg name = .none := by
  subst harg hname
  by_contra hfits
  rcases ofName_ne_none_iff.mp hfits with heq | ⟨-, h⟩
  · exact hne heq
  · exact hlanguage h

/-- A question mark never stands for the letter that has two in lowercase, and a sigma is written as it
was in the pattern. -/
theorem ofName_ne_none_of_stands (h : Stands (· ≠ 'İ') arg.toList name.toList)
    (hsigma : SigmasSettled [] arg.toList) : ofName arg name ≠ .none := by
  refine ofName_ne_none_iff.mpr ?_
  by_cases hpattern : isPattern arg.toList = true
  · exact .inr ⟨hpattern, h.lower (fun _ => rfl) hsigma⟩
  · have hsame := h.eq (Bool.not_eq_true _ ▸ hpattern)
    exact .inl (by rw [hsame])

theorem ofName_two_letters : ofName "?" "İ" = .none := by
  have hone : lowerAfter [] "?".toList = ['?'] := by decide +kernel
  have htwo : lowerAfter [] "İ".toList = ['i', '\u0307'] := by decide +kernel
  exact ofName_eq_none hone htwo (by decide) (by simp [Glob.Language])

theorem ofName_one_iff (c : Char) : ofName "?" (String.singleton c) ≠ .none ↔ c ≠ 'İ' := by
  constructor
  · rintro h rfl
    exact h ofName_two_letters
  · intro hc
    refine ofName_ne_none_of_stands ?_ ?_
    · rw [String.toList_singleton]
      exact .one hc .nil
    · exact ⟨by decide, trivial⟩

theorem ofName_start_iff (start : String) :
    (∀ rest, ofName (start ++ "*") (start ++ rest) ≠ .none) ↔ ¬ SigmaOpen start.toList := by
  have hstar : (start ++ "*").toList = start.toList ++ ['*'] := String.toList_append
  constructor
  · intro hall hopen
    have hletter : (start ++ "a").toList = start.toList ++ ['a'] := String.toList_append
    obtain ⟨front, back, hfinal, hsmall⟩ := lower_of_open hopen
    rw [← hstar] at hfinal
    rw [← hletter] at hsmall
    have hcount : ¬ (lowerAfter [] (start ++ "*").toList).count 'ς' ≤
        (lowerAfter [] (start ++ "a").toList).count 'ς' := by
      rw [hfinal, hsmall]
      simp
    rcases ofName_ne_none_iff.mp (hall "a") with heq | ⟨-, hlanguage⟩
    · exact hcount (Nat.le_of_eq (by rw [heq]))
    · exact hcount (count_le_of_language rfl hlanguage)
  · intro hopen rest
    refine ofName_ne_none_iff.mpr (.inr ⟨?_, ?_⟩)
    · rw [hstar, isPattern, List.any_append]
      simp
    · rw [hstar, String.toList_append, lowerAfter_append, lowerAfter_append, lowerAfter_star,
        lowerWithin_of_not_open hopen]
      exact language_same_append _ ⟨_, [], (List.append_nil _).symm, rfl⟩

/-- What fits a pattern fits it with case ignored too, if its question marks can be read as other letters
than the one that has two in lowercase and the pattern settles how its sigmas are written. These letters
are what a question mark alone stands for, and a star takes every rest of a name if and only if what
stands before it does not end in a sigma that the rest decides on. -/
theorem fits_when_case_ignored (arg name : String) :
    (Glob.Language arg.toList name.toList ↔
      Stands (fun _ => True) arg.toList name.toList) ∧
    (Stands (· ≠ 'İ') arg.toList name.toList → SigmasSettled [] arg.toList →
      ofName arg name ≠ .none) ∧
    (∀ c, ofName "?" (String.singleton c) ≠ .none ↔ c ≠ 'İ') ∧
    ((∀ rest, ofName (arg ++ "*") (arg ++ rest) ≠ .none) ↔ ¬ SigmaOpen arg.toList) :=
  ⟨language_iff_stands, ofName_ne_none_of_stands, ofName_one_iff, ofName_start_iff arg⟩

theorem odos_fits_when_case_ignored :
    Stands (· ≠ 'İ') "ΟΔΟΣ-?*".toList "ΟΔΟΣ-Bx".toList ∧ SigmasSettled [] "ΟΔΟΣ-?*".toList ∧
    ofName "ΟΔΟΣ-?*" "ΟΔΟΣ-Bx" ≠ .none := by
  have hstands : Stands (· ≠ 'İ') "ΟΔΟΣ-?*".toList "ΟΔΟΣ-Bx".toList := by
    refine .same _ (.same _ (.same _ (.same _ (.same _ (.one ?_ (.run ['x'] .nil))))))
    decide
  have hsigma : SigmasSettled [] "ΟΔΟΣ-?*".toList := by decide +kernel
  exact ⟨hstands, hsigma, (fits_when_case_ignored _ _).2.1 hstands hsigma⟩

theorem fits_lost_to_case :
    (Glob.Language "?".toList "İ".toList ∧ ofName "?" "İ" = .none) ∧
    Glob.Language "aΣ*".toList "aΣb".toList ∧ ofName "aΣ*" "aΣb" = .none := by
  refine ⟨⟨⟨'İ', [], rfl, rfl⟩, ofName_two_letters⟩, ?_, ?_⟩
  · exact language_same 'a' (language_same 'Σ' ⟨['b'], [], rfl, rfl⟩)
  · have hfinal : lowerAfter [] "aΣ*".toList = ['a', 'ς', '*'] := by decide +kernel
    have hsmall : lowerAfter [] "aΣb".toList = ['a', 'σ', 'b'] := by decide +kernel
    exact ofName_eq_none hfinal hsmall (by decide) (by simp [Glob.Language])

end Strength

end Muster
