import Mathlib.Data.List.Forall2
import Mathlib.Logic.Relation
import Muster.Glob

/-! The search for a pattern in a text. Main statement: it ends, at places that never leave the pattern or
the text, and it tells whether the text is one of those that the pattern stands for. -/

namespace Muster.Glob

theorem language_star_drop {pattern text : List Char} :
    Language ('*' :: pattern) text ↔ ∃ k, Language pattern (text.drop k) := by
  simp only [Language]
  constructor
  · rintro ⟨run, rest, rfl, h⟩
    exact ⟨run.length, by rwa [List.drop_left]⟩
  · rintro ⟨k, h⟩
    exact ⟨text.take k, text.drop k, (List.take_append_drop k text).symm, h⟩

theorem language_star_of_drop {pattern text : List Char} {k : Nat}
    (h : Language ('*' :: pattern) (text.drop k)) : Language ('*' :: pattern) text := by
  obtain ⟨j, hj⟩ := language_star_drop.mp h
  rw [List.drop_drop] at hj
  exact language_star_drop.mpr ⟨_, hj⟩

theorem language_star_cons {pattern text : List Char} {c : Char}
    (h : ¬ Language pattern (c :: text)) :
    Language ('*' :: pattern) (c :: text) ↔ Language ('*' :: pattern) text := by
  constructor
  · intro hstar
    obtain ⟨k, hk⟩ := language_star_drop.mp hstar
    cases k with
    | zero => exact absurd hk h
    | succ k => exact language_star_drop.mpr ⟨k, hk⟩
  · intro hstar
    exact language_star_of_drop (k := 1) hstar

theorem language_cons {p : Char} {pattern text : List Char} (hp : p ≠ '*') :
    Language (p :: pattern) text ↔
      ∃ c rest, text = c :: rest ∧ (p = '?' ∨ p = c) ∧ Language pattern rest := by
  by_cases hany : p = '?'
  · subst hany
    simp [Language]
  · have hlanguage : Language (p :: pattern) text ↔
        ∃ rest, text = p :: rest ∧ Language pattern rest := by
      rw [Language]
      · exact hp
      · exact hany
    rw [hlanguage]
    constructor
    · rintro ⟨rest, rfl, h⟩
      exact ⟨p, rest, rfl, .inr rfl, h⟩
    · rintro ⟨c, rest, rfl, hc, h⟩
      exact ⟨rest, by rw [hc.resolve_left hany], h⟩

theorem language_nil {pattern : List Char} :
    Language pattern [] ↔ pattern.all (· == '*') = true := by
  induction pattern with
  | nil => simp [Language]
  | cons p ps ih =>
    by_cases hp : p = '*'
    · subst hp
      rw [language_star_drop]
      simp [ih]
    · rw [language_cons hp]
      simp [hp]

/-- A character of a pattern, not a star, that stands for the given one. -/
def Meets (p c : Char) : Prop := p ≠ '*' ∧ (p = '?' ∨ p = c)

theorem language_append {met taken pattern text : List Char} (h : List.Forall₂ Meets met taken) :
    Language (met ++ pattern) (taken ++ text) ↔ Language pattern text := by
  induction h with
  | nil => rfl
  | @cons p c ps cs hpc _ ih =>
    rw [List.cons_append, List.cons_append, language_cons hpc.1]
    constructor
    · rintro ⟨d, rest, heq, -, hrest⟩
      obtain ⟨rfl, rfl⟩ := List.cons.inj heq
      exact ih.mp hrest
    · intro hrest
      exact ⟨c, _, rfl, hpc.2, ih.mpr hrest⟩

/-- A stretch without stars takes as many characters as it has, of any text. -/
theorem language_drop_of_append {met taken pattern text : List Char}
    (h : List.Forall₂ Meets met taken) (htext : Language (met ++ pattern) text) :
    Language pattern (text.drop met.length) := by
  induction h generalizing text with
  | nil => exact htext
  | cons hpc _ ih =>
    rw [List.cons_append, language_cons hpc.1] at htext
    obtain ⟨c, rest, rfl, -, hrest⟩ := htext
    exact ih hrest

/-- Since the last star the search has met a stretch without stars. -/
def Kept (pattern text : List Char) : Option (List Char × List Char) → Prop
  | none => True
  | some (behind, left) =>
    ∃ met taken, List.Forall₂ Meets met taken ∧ behind = met ++ pattern ∧ left = taken ++ text

/-- What is to be found out: whether the rest fits, or else whether what was left at the last star fits
the star and all behind it. -/
def Wanted (pattern text : List Char) : Option (List Char × List Char) → Prop
  | none => Language pattern text
  | some (behind, left) => Language ('*' :: behind) left

theorem Kept.language {pattern text behind left : List Char}
    (h : Kept pattern text (some (behind, left))) :
    Language behind left ↔ Language pattern text := by
  obtain ⟨met, taken, hmet, rfl, rfl⟩ := h
  exact language_append hmet

theorem kept_self (pattern text : List Char) : Kept pattern text (some (pattern, text)) :=
  ⟨[], [], .nil, rfl, rfl⟩

theorem Kept.meet {p c : Char} {pattern text : List Char}
    {star : Option (List Char × List Char)} (h : Kept (p :: pattern) (c :: text) star)
    (hpc : Meets p c) : Kept pattern text star := by
  cases star with
  | none => trivial
  | some s =>
    obtain ⟨met, taken, hmet, hbehind, hleft⟩ := h
    have hone : List.Forall₂ Meets [p] [c] := .cons hpc .nil
    exact ⟨met ++ [p], taken ++ [c], List.rel_append hmet hone, by simp [hbehind],
      by simp [hleft]⟩

/-- Wherever the last star ends, what was met since takes the rest of the text from the same place on
or a later one. -/
theorem Kept.drop {pattern text behind left : List Char} {k : Nat}
    (h : Kept pattern text (some (behind, left))) (hk : Language behind (left.drop k)) :
    Language pattern (text.drop k) := by
  obtain ⟨met, taken, hmet, rfl, rfl⟩ := h
  have hrest := language_drop_of_append hmet hk
  have hlength := hmet.length_eq
  rw [List.drop_drop, Nat.add_comm, hlength, List.drop_length_add_append] at hrest
  exact hrest

theorem Kept.wanted_nil {pattern : List Char} {star : Option (List Char × List Char)}
    (h : Kept pattern [] star) : Wanted pattern [] star ↔ Language pattern [] := by
  cases star with
  | none => rfl
  | some s =>
    constructor
    · intro hstar
      obtain ⟨k, hk⟩ := language_star_drop.mp hstar
      simpa using h.drop hk
    · intro hnil
      exact language_star_drop.mpr ⟨0, h.language.mpr hnil⟩

/-- The stars before the last one can be forgotten: a later end of an earlier star leaves less of the
text, which the new star may take too. -/
theorem Kept.wanted_star {pattern text : List Char} {star : Option (List Char × List Char)}
    (h : Kept ('*' :: pattern) text star) :
    Wanted ('*' :: pattern) text star ↔ Wanted pattern text (some (pattern, text)) := by
  cases star with
  | none => rfl
  | some s =>
    constructor
    · intro hstar
      obtain ⟨k, hk⟩ := language_star_drop.mp hstar
      exact language_star_of_drop (h.drop hk)
    · intro hrest
      exact language_star_drop.mpr ⟨0, h.language.mpr hrest⟩

theorem wanted_meet {p c : Char} {pattern text : List Char}
    {star : Option (List Char × List Char)} (hpc : Meets p c) :
    Wanted (p :: pattern) (c :: text) star ↔ Wanted pattern text star := by
  cases star with
  | none =>
    have hone : List.Forall₂ Meets [p] [c] := .cons hpc .nil
    exact language_append hone
  | some s => rfl

/-- A mismatch: the pattern neither begins with a star nor with something that stands for `c`. -/
theorem not_language_of_mismatch {c : Char} {pattern text : List Char}
    (hstar : ¬ pattern.head? = some '*')
    (hmeet : ¬ (pattern.head? = some '?' ∨ pattern.head? = some c)) :
    ¬ Language pattern (c :: text) := by
  cases pattern with
  | nil => simp [Language]
  | cons p ps =>
    have hp : p ≠ '*' := by simpa using hstar
    rw [language_cons hp]
    rintro ⟨d, rest, heq, hpd, -⟩
    obtain ⟨rfl, rfl⟩ := List.cons.inj heq
    exact hmeet (by simpa using hpd)

theorem search_eq_true_iff {pattern text : List Char} {star : Option (List Char × List Char)}
    (h : Kept pattern text star) : search pattern text star = true ↔ Wanted pattern text star := by
  fun_induction search pattern text star with
  | case1 pattern star => rw [h.wanted_nil, language_nil]
  | case2 pattern star c cs hstar ih =>
    obtain ⟨ps, rfl⟩ := List.head?_eq_some_iff.mp hstar
    rw [h.wanted_star]
    exact ih (kept_self _ _)
  | case3 pattern star c cs hstar hmeet ih =>
    cases pattern with
    | nil => simp at hmeet
    | cons p ps =>
      have hpc : Meets p c := ⟨by simpa using hstar, by simpa using hmeet⟩
      rw [wanted_meet hpc]
      exact ih (h.meet hpc)
  | case4 pattern c cs hstar hmeet behind d left ih =>
    have hno : ¬ Language behind (d :: left) := fun hl =>
      not_language_of_mismatch hstar hmeet (h.language.mp hl)
    have hwanted : Wanted pattern (c :: cs) (some (behind, d :: left)) ↔
        Wanted behind left (some (behind, left)) := language_star_cons hno
    rw [hwanted]
    exact ih (kept_self _ _)
  | case5 pattern star c cs hstar hmeet hnone =>
    have hno : ¬ Language pattern (c :: cs) := not_language_of_mismatch hstar hmeet
    cases star with
    | none => simpa [Wanted] using hno
    | some s =>
      obtain ⟨met, taken, -, -, hleft⟩ := h
      obtain ⟨d, left, hcons⟩ : ∃ d left, s.2 = d :: left := by
        rw [hleft]
        cases taken with
        | nil => exact ⟨c, cs, rfl⟩
        | cons d ds => exact ⟨d, _, rfl⟩
      exact absurd (by rw [← hcons]) (hnone s.1 d left)

/-- A place of the search: an index of the pattern and one of the text; and of the last star that was met
its own index, and how far into the text it reaches. -/
structure Place where
  p : Nat := 0
  t : Nat := 0
  star? : Option (Nat × Nat) := none

inductive Look where
  | goes (next : Place)
  | ends (verdict : Bool)
  | strays

namespace Place

/-- What comes of a place. A place behind the end of the pattern or of the text leads astray. -/
def look (pattern text : List Char) (a : Place) : Look :=
  if pattern.length < a.p ∨ text.length < a.t then .strays
  else match text[a.t]? with
    | none => .ends ((pattern.drop a.p).all (· == '*'))
    | some c =>
      if pattern[a.p]? = some '*' then .goes ⟨a.p + 1, a.t, some (a.p, a.t)⟩
      else if pattern[a.p]? = some '?' ∨ pattern[a.p]? = some c then
        .goes ⟨a.p + 1, a.t + 1, a.star?⟩
      else match a.star? with
        | some (star, reach) => .goes ⟨star + 1, reach + 1, some (star, reach + 1)⟩
        | none => .ends false

def Leads (pattern text : List Char) (a b : Place) : Prop := a.look pattern text = .goes b

abbrev Reaches (pattern text : List Char) : Place → Place → Prop :=
  Relation.ReflTransGen (Leads pattern text)

structure Within (pattern text : List Char) (a : Place) : Prop where
  p_le : a.p ≤ pattern.length
  t_le : a.t ≤ text.length
  star_lt : ∀ s ∈ a.star?, s.1 < pattern.length
  reach_le : ∀ s ∈ a.star?, s.2 ≤ a.t

variable {pattern text : List Char} {a b : Place}

theorem Within.not_astray (h : a.Within pattern text) :
    ¬ (pattern.length < a.p ∨ text.length < a.t) := by
  have hp := h.p_le
  have ht := h.t_le
  omega

theorem Within.look_eq (h : a.Within pattern text) {c : Char} (hc : text[a.t]? = some c) :
    a.look pattern text =
      if pattern[a.p]? = some '*' then .goes ⟨a.p + 1, a.t, some (a.p, a.t)⟩
      else if pattern[a.p]? = some '?' ∨ pattern[a.p]? = some c then
        .goes ⟨a.p + 1, a.t + 1, a.star?⟩
      else match a.star? with
        | some (star, reach) => .goes ⟨star + 1, reach + 1, some (star, reach + 1)⟩
        | none => .ends false := by
  rw [look, if_neg h.not_astray, hc]

theorem Within.next (h : a.Within pattern text) (hlook : Leads pattern text a b) :
    b.Within pattern text := by
  have ht := h.t_le
  cases hc : text[a.t]? with
  | none => simp [Leads, look, h.not_astray, hc] at hlook
  | some c =>
    have hlt : a.t < text.length := (List.getElem?_eq_some_iff.mp hc).1
    rw [Leads, h.look_eq hc] at hlook
    by_cases hstar : pattern[a.p]? = some '*'
    · have hp : a.p < pattern.length := (List.getElem?_eq_some_iff.mp hstar).1
      rw [if_pos hstar] at hlook
      obtain rfl := Look.goes.inj hlook
      exact ⟨hp, ht, by simpa using hp, by simp⟩
    · rw [if_neg hstar] at hlook
      by_cases hmeet : pattern[a.p]? = some '?' ∨ pattern[a.p]? = some c
      · have hp : a.p < pattern.length := by
          rcases hmeet with hmeet | hmeet
          · exact (List.getElem?_eq_some_iff.mp hmeet).1
          · exact (List.getElem?_eq_some_iff.mp hmeet).1
        rw [if_pos hmeet] at hlook
        obtain rfl := Look.goes.inj hlook
        exact ⟨hp, hlt, h.star_lt, fun s hs => Nat.le_succ_of_le (h.reach_le s hs)⟩
      · rw [if_neg hmeet] at hlook
        cases hs : a.star? with
        | none => simp [hs] at hlook
        | some s =>
          have hp := h.star_lt s hs
          have hreach := h.reach_le s hs
          simp only [hs] at hlook
          obtain rfl := Look.goes.inj hlook
          exact ⟨hp, by simp only; omega, by simpa using hp, by simp⟩

theorem Within.reaches (h : a.Within pattern text) (hab : Reaches pattern text a b) :
    b.Within pattern text := by
  induction hab with
  | refl => exact h
  | tail _ hstep ih => exact ih.next hstep

theorem Within.look_ne_strays (h : a.Within pattern text) : a.look pattern text ≠ .strays := by
  rw [look, if_neg h.not_astray]
  split
  · simp
  · split
    · simp
    · split
      · simp
      · split <;> simp

theorem within_start (pattern text : List Char) : Within pattern text {} :=
  ⟨Nat.zero_le _, Nat.zero_le _, by simp, by simp⟩

/-- The pattern behind the last star, and the text that this star has not taken. -/
def star (pattern text : List Char) (a : Place) : Option (List Char × List Char) :=
  a.star?.map fun s => (pattern.drop (s.1 + 1), text.drop s.2)

theorem getElem?_of_drop {cs : List Char} {i : Nat} {c : Char} {rest : List Char}
    (h : cs.drop i = c :: rest) : cs[i]? = some c ∧ cs.drop (i + 1) = rest := by
  constructor
  · rw [← List.head?_drop, h, List.head?_cons]
  · rw [← List.tail_drop, h, List.tail_cons]

theorem reaches_end (h : a.Within pattern text) :
    ∃ b, Reaches pattern text a b ∧ b.look pattern text =
      .ends (search (pattern.drop a.p) (text.drop a.t) (a.star pattern text)) := by
  -- by the recursion of the search, each call of which is one look
  generalize hp : pattern.drop a.p = p
  generalize ht : text.drop a.t = t
  generalize hs : a.star pattern text = s
  fun_induction search p t s generalizing a with
  | case1 p s =>
    have hnone : text[a.t]? = none := by
      rw [← List.head?_drop, ht, List.head?_nil]
    exact ⟨a, .refl, by rw [look, if_neg h.not_astray, hnone, hp]⟩
  | case2 p s c cs hstar ih =>
    obtain ⟨hc, -⟩ := getElem?_of_drop ht
    rw [← hp, List.head?_drop] at hstar
    have hlook : Leads pattern text a ⟨a.p + 1, a.t, some (a.p, a.t)⟩ := by
      rw [Leads, h.look_eq hc, if_pos hstar]
    have htail : pattern.drop (a.p + 1) = p.tail := by rw [← List.tail_drop, hp]
    obtain ⟨b, hreach, hend⟩ := ih (h.next hlook) htail ht (by simp [star, htail, ht])
    exact ⟨b, .head hlook hreach, hend⟩
  | case3 p s c cs hstar hmeet ih =>
    obtain ⟨hc, hcs⟩ := getElem?_of_drop ht
    rw [← hp, List.head?_drop] at hstar hmeet
    have hlook : Leads pattern text a ⟨a.p + 1, a.t + 1, a.star?⟩ := by
      rw [Leads, h.look_eq hc, if_neg hstar, if_pos hmeet]
    have htail : pattern.drop (a.p + 1) = p.tail := by rw [← List.tail_drop, hp]
    obtain ⟨b, hreach, hend⟩ := ih (h.next hlook) htail hcs hs
    exact ⟨b, .head hlook hreach, hend⟩
  | case4 p c cs hstar hmeet behind d left ih =>
    obtain ⟨hc, -⟩ := getElem?_of_drop ht
    rw [← hp, List.head?_drop] at hstar hmeet
    obtain ⟨⟨i, reach⟩, hlast, heq⟩ := Option.map_eq_some_iff.mp hs
    obtain ⟨hbehind, hleft⟩ := Prod.mk.inj heq
    have hlook : Leads pattern text a ⟨i + 1, reach + 1, some (i, reach + 1)⟩ := by
      rw [Leads, h.look_eq hc, if_neg hstar, if_neg hmeet, hlast]
    have hrest := (getElem?_of_drop hleft).2
    obtain ⟨b, hreach, hend⟩ := ih (h.next hlook) hbehind hrest (by simp [star, hbehind, hrest])
    exact ⟨b, .head hlook hreach, hend⟩
  | case5 p s c cs hstar hmeet hnone =>
    obtain ⟨hc, -⟩ := getElem?_of_drop ht
    rw [← hp, List.head?_drop] at hstar hmeet
    have hlast : a.star? = none := by
      cases hlast : a.star? with
      | none => rfl
      | some last =>
        -- the star reaches no further than the place, which is within the text
        have hlt : a.t < text.length := (List.getElem?_eq_some_iff.mp hc).1
        have hreach := h.reach_le last hlast
        cases hleft : text.drop last.2 with
        | nil =>
          have := List.drop_eq_nil_iff.mp hleft
          omega
        | cons d left =>
          have hsome : s = some (pattern.drop (last.1 + 1), d :: left) := by
            rw [← hs, star, hlast, Option.map_some, hleft]
          exact absurd hsome (hnone _ _ _)
    exact ⟨a, .refl, by rw [h.look_eq hc, if_neg hstar, if_neg hmeet, hlast]⟩

end Place

/-- A text is matched if and only if it is one of those that the pattern stands for. Place by place the
search comes to an end with that answer, and no index on the way is outside of the pattern or the text. -/
theorem isMatch_iff_language (pattern text : List Char) :
    (isMatch pattern text = true ↔ Language pattern text) ∧
    (∃ a, Place.Reaches pattern text {} a ∧
      a.look pattern text = .ends (isMatch pattern text)) ∧
    ∀ a, Place.Reaches pattern text {} a →
      a.Within pattern text ∧ a.look pattern text ≠ .strays := by
  have hstart := Place.within_start pattern text
  refine ⟨search_eq_true_iff trivial, Place.reaches_end hstart, fun a hreach => ?_⟩
  have hwithin := hstart.reaches hreach
  exact ⟨hwithin, hwithin.look_ne_strays⟩

end Muster.Glob
