import Muster.Text.Layout

/-! The characters and the lengths of text that was laid out. -/

namespace Muster.Text

variable {P : Char → Prop}

theorem length_fit (cs : List Char) (width : Nat) : (fit cs width).length = width := by
  simp only [fit]
  split
  · simp only [List.length_append, List.length_replicate]
    omega
  · split
    · rw [List.length_take]
      omega
    · simp only [List.length_append, List.length_take, ellipsis, List.length_cons,
        List.length_nil] at *
      omega

/-- A fitted line holds blanks, dots, and what it was made of apart from newlines. -/
theorem forall_mem_fit (hblank : P ' ') (hdot : P '.') {cs : List Char}
    (h : ∀ c ∈ cs, c = '\n' ∨ P c) (width : Nat) : ∀ c ∈ fit cs width, P c := by
  have hflat : ∀ c ∈ cs.map fun c => if c = '\n' then ' ' else c, P c := by
    intro c hc
    obtain ⟨d, hd, rfl⟩ := List.mem_map.mp hc
    split
    · exact hblank
    · rename_i hne
      exact (h d hd).resolve_left hne
  intro c hc
  simp only [fit] at hc
  split at hc
  · rcases List.mem_append.mp hc with hc | hc
    · exact hflat c hc
    · rw [List.eq_of_mem_replicate hc]
      exact hblank
  · split at hc
    · exact hflat c (List.mem_of_mem_take hc)
    · rcases List.mem_append.mp hc with hc | hc
      · exact hflat c (List.mem_of_mem_take hc)
      · have : c = '.' := by simpa [ellipsis] using hc
        exact this ▸ hdot

theorem forall_mem_lines {cs : List Char} (h : ∀ c ∈ cs, P c) :
    ∀ l ∈ lines cs, ∀ c ∈ l, P c := by
  fun_induction lines cs with
  | case1 => simp
  | case2 cs ih => simpa using ih fun c hc => h c (by simp [hc])
  | case3 cs ih => simpa using ih fun c hc => h c (by simp [hc])
  | case4 c cs _ _ hnil ih => simpa using h c (by simp)
  | case5 c cs _ _ l ls hlines ih =>
    have hrest := ih fun d hd => h d (by simp [hd])
    simp only [hlines, List.mem_cons, forall_eq_or_imp] at hrest ⊢
    exact ⟨⟨h c (by simp), hrest.1⟩, hrest.2⟩

theorem forall_mem_words {cs : List Char} (h : ∀ c ∈ cs, P c) :
    ∀ w ∈ words cs, ∀ c ∈ w, P c := by
  fun_induction words cs with
  | case1 => simp
  | case2 c cs _ ih => exact ih fun d hd => h d (by simp [hd])
  | case3 c _ => simpa using h c (by simp)
  | case4 c _ d cs _ ih =>
    simp only [List.mem_cons, forall_eq_or_imp, List.not_mem_nil, false_implies, implies_true,
      and_true]
    exact ⟨h c (by simp), ih fun e he => h e (by simp [he])⟩
  | case5 c _ d cs _ hwords ih => simpa [hwords] using h c (by simp)
  | case6 c _ d cs _ w ws hwords ih =>
    have hrest := ih fun e he => h e (by simp [he])
    simp only [hwords, List.mem_cons, forall_eq_or_imp] at hrest ⊢
    exact ⟨⟨h c (by simp), hrest.1⟩, hrest.2⟩

theorem forall_mem_chop {width : Nat} {word : List Char} (h : ∀ c ∈ word, P c) :
    (∀ l ∈ (chop width word).1, ∀ c ∈ l, P c) ∧ ∀ c ∈ (chop width word).2, P c := by
  fun_induction chop width word with
  | case1 word _ => exact ⟨by simp, h⟩
  | case2 word _ pieces last hchop ih =>
    have hrest := ih fun c hc => h c (List.mem_of_mem_drop hc)
    rw [hchop] at hrest
    simp only [List.mem_cons, forall_eq_or_imp]
    exact ⟨⟨fun c hc => h c (List.mem_of_mem_take hc), hrest.1⟩, hrest.2⟩

theorem forall_mem_fill (hblank : P ' ') {width : Nat} {ws : List (List Char)}
    {current : List Char} (hws : ∀ w ∈ ws, ∀ c ∈ w, P c) (hcurrent : ∀ c ∈ current, P c) :
    ∀ l ∈ fill width ws current, ∀ c ∈ l, P c := by
  induction ws generalizing current with
  | nil => simpa [fill] using hcurrent
  | cons w ws ih =>
    have hrest : ∀ v ∈ ws, ∀ c ∈ v, P c := fun v hv => hws v (by simp [hv])
    have hchop : (∀ l ∈ (chop width w).1, ∀ c ∈ l, P c) ∧ ∀ c ∈ (chop width w).2, P c :=
      forall_mem_chop (hws w (by simp))
    simp only [fill]
    split
    · intro l hl
      rcases List.mem_append.mp hl with hl | hl
      · exact hchop.1 l hl
      · exact ih hrest hchop.2 l hl
    · split
      · refine ih hrest ?_
        intro c hc
        rcases List.mem_append.mp hc with hc | hc
        · exact hcurrent c hc
        · rcases List.mem_cons.mp hc with rfl | hc
          · exact hblank
          · exact hws w (by simp) c hc
      · intro l hl
        rcases List.mem_append.mp hl with hl | hl
        · rcases List.mem_cons.mp hl with rfl | hl
          · exact hcurrent
          · exact hchop.1 l hl
        · exact ih hrest hchop.2 l hl

theorem forall_mem_wrap (hblank : P ' ') {text : List Char} (h : ∀ c ∈ text, P c)
    (width : Nat) : ∀ l ∈ wrap text width, ∀ c ∈ l, P c := by
  intro l hl
  obtain ⟨line, hline, hl⟩ := List.mem_flatMap.mp hl
  exact forall_mem_fill hblank (forall_mem_words (forall_mem_lines h line hline)) (by simp) l hl

theorem forall_mem_hang (hblank : P ' ') {lead : List Char} {ls : List (List Char)}
    (hlead : ∀ c ∈ lead, P c) (hls : ∀ l ∈ ls, ∀ c ∈ l, P c) :
    ∀ l ∈ hang lead ls, ∀ c ∈ l, P c := by
  cases ls with
  | nil => simp [hang]
  | cons l ls =>
    simp only [hang, List.mem_cons, List.mem_map, forall_eq_or_imp, List.mem_append]
    refine ⟨?_, ?_⟩
    · rintro c (hc | hc)
      · exact hlead c hc
      · exact hls l (by simp) c hc
    · rintro _ ⟨m, hm, rfl⟩ c hc
      rcases List.mem_append.mp hc with hc | hc
      · rw [List.eq_of_mem_replicate hc]
        exact hblank
      · exact hls m (by simp [hm]) c hc

theorem length_of_mem_paragraph {text lead l : List Char} {width : Nat}
    (h : l ∈ paragraph text lead width) : l.length = width := by
  obtain ⟨m, _, rfl⟩ := List.mem_map.mp h
  exact length_fit m width

theorem forall_mem_paragraph (hblank : P ' ') (hdot : P '.') {text lead : List Char}
    (htext : ∀ c ∈ text, c = '\n' ∨ P c) (hlead : ∀ c ∈ lead, c = '\n' ∨ P c) (width : Nat) :
    ∀ l ∈ paragraph text lead width, ∀ c ∈ l, P c := by
  intro l hl
  obtain ⟨m, hm, rfl⟩ := List.mem_map.mp hl
  exact forall_mem_fit hblank hdot
    (forall_mem_hang (.inr hblank) hlead (forall_mem_wrap (.inr hblank) htext _) m hm) width

end Muster.Text
