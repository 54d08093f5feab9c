import Mathlib.Data.List.DropRight
import Muster.Proofs.Text.Layout

/-! Texts without their blanks, and texts whose trailing blanks are cut off. -/

namespace Muster.Text

/-- What is left of a text without its blank characters. -/
def inked (cs : List Char) : List Char := cs.filter fun c => !isBlank c

@[simp] theorem inked_append (cs ds : List Char) : inked (cs ++ ds) = inked cs ++ inked ds :=
  List.filter_append cs ds

@[simp] theorem inked_cons_of_blank {c : Char} {cs : List Char} (h : isBlank c = true) :
    inked (c :: cs) = inked cs := by simp [inked, h]

theorem inked_cons_of_not_blank {c : Char} {cs : List Char} (h : isBlank c = false) :
    inked (c :: cs) = c :: inked cs := by simp [inked, h]

theorem inked_inked (cs : List Char) : inked (inked cs) = inked cs := by simp [inked]

theorem trimRight_eq (cs : List Char) : trimRight cs = cs.rdropWhile isBlank := rfl

theorem trimRight_append_blanks {ds : List Char} (h : ∀ c ∈ ds, isBlank c = true) (cs : List Char) :
    trimRight (cs ++ ds) = trimRight cs := by
  induction ds using List.reverseRecOn with
  | nil => rw [List.append_nil]
  | append_singleton ds d ih =>
    rw [List.forall_mem_append] at h
    rw [← List.append_assoc, trimRight_eq, List.rdropWhile_concat_pos _ _ _ (by simpa using h.2),
      ← trimRight_eq, ih h.1]

theorem trimRight_append {ds : List Char} (hne : ds ≠ []) (h : trimRight ds = ds)
    (cs : List Char) : trimRight (cs ++ ds) = cs ++ ds := by
  rw [trimRight_eq, List.rdropWhile_eq_self_iff] at h ⊢
  intro hall
  rw [List.getLast_append_of_ne_nil hall hne]
  exact h hne

theorem trimRight_of_not_blank {cs : List Char} (h : ∀ c ∈ cs, isBlank c = false) :
    trimRight cs = cs := by
  rw [trimRight_eq, List.rdropWhile_eq_self_iff]
  intro hne
  simp [h _ (List.getLast_mem hne)]

theorem exists_trimRight_append (cs : List Char) :
    ∃ ds, (∀ c ∈ ds, isBlank c = true) ∧ trimRight cs ++ ds = cs :=
  ⟨cs.rtakeWhile isBlank, fun _ => List.mem_rtakeWhile_imp, List.rdropWhile_append_rtakeWhile⟩

theorem length_trimRight_le (cs : List Char) : (trimRight cs).length ≤ cs.length :=
  (List.rdropWhile_prefix isBlank cs).length_le

theorem inked_trimRight (cs : List Char) : inked (trimRight cs) = inked cs := by
  obtain ⟨ds, hblank, hcs⟩ := exists_trimRight_append cs
  have hds : inked ds = [] := by simpa [inked] using hblank
  calc inked (trimRight cs)
      = inked (trimRight cs ++ ds) := by rw [inked_append, hds, List.append_nil]
    _ = inked cs := by rw [hcs]

/-- A stretch of a text loses nothing but trailing blanks when the text does. -/
theorem trimRight_take_drop_trimRight (cs : List Char) (start width : Nat) :
    trimRight (((trimRight cs).drop start).take width) = trimRight ((cs.drop start).take width) := by
  obtain ⟨ds, hblank, hcs⟩ := exists_trimRight_append cs
  calc trimRight (((trimRight cs).drop start).take width)
      = trimRight (((trimRight cs ++ ds).drop start).take width) := by
        rw [List.drop_append, List.take_append]
        refine (trimRight_append_blanks (fun c hc => ?_) _).symm
        exact hblank c (List.mem_of_mem_drop (List.mem_of_mem_take hc))
    _ = trimRight ((cs.drop start).take width) := by rw [hcs]

theorem not_blank_of_mem_word {cs w : List Char} (h : w ∈ words cs) :
    w ≠ [] ∧ ∀ c ∈ w, isBlank c = false := by
  fun_induction words cs generalizing w with
  | case1 => simp at h
  | case2 c cs _ ih => exact ih h
  | case3 c hc =>
    obtain rfl : w = [c] := by simpa using h
    simpa using hc
  | case4 c hc d cs _ ih =>
    rcases List.mem_cons.mp h with rfl | h
    · simpa using hc
    · exact ih h
  | case5 c hc d cs _ hnil _ =>
    simp only [hnil] at h
    obtain rfl : w = [c] := by simpa using h
    simpa using hc
  | case6 c hc d cs _ v vs hwords ih =>
    simp only [hwords] at h ih
    rcases List.mem_cons.mp h with rfl | h
    · have hv := ih List.mem_cons_self
      exact ⟨List.cons_ne_nil _ _, List.forall_mem_cons.mpr ⟨by simpa using hc, hv.2⟩⟩
    · exact ih (List.mem_cons_of_mem v h)

theorem flatten_words (cs : List Char) : (words cs).flatten = inked cs := by
  fun_induction words cs with
  | case1 => rfl
  | case2 c cs hc ih => rw [ih, inked_cons_of_blank hc]
  | case3 c hc => simp [inked, hc]
  | case4 c hc d cs hd ih =>
    rw [List.flatten_cons, ih, inked_cons_of_not_blank (Bool.eq_false_iff.mpr hc)]
    rfl
  | case5 c hc d cs hd hnil ih =>
    rw [hnil] at ih
    simp only [hnil, inked_cons_of_not_blank (Bool.eq_false_iff.mpr hc), ← ih]
    rfl
  | case6 c hc d cs hd w ws hwords ih =>
    rw [hwords] at ih
    simp only [hwords, inked_cons_of_not_blank (Bool.eq_false_iff.mpr hc), ← ih]
    rfl

theorem inked_lines (cs : List Char) : inked (lines cs).flatten = inked cs := by
  fun_induction lines cs with
  | case1 => rfl
  | case2 cs ih => rw [inked_cons_of_blank rfl, ← ih]; rfl
  | case3 cs ih => rw [inked_cons_of_blank rfl, inked_cons_of_blank rfl, ← ih]; rfl
  | case4 c cs _ _ hnil ih =>
    rw [hnil] at ih
    change inked ([c] ++ []) = inked ([c] ++ cs)
    rw [inked_append, inked_append, ← ih]
    rfl
  | case5 c cs _ _ l ls hlines ih =>
    rw [hlines] at ih
    change inked ([c] ++ (l :: ls).flatten) = inked ([c] ++ cs)
    rw [inked_append, inked_append, ih]

end Muster.Text
