import Mathlib.Data.List.Induction
import Mathlib.Data.String.Basic
import Muster.Json

/-! Objects made of a list of fields. Their names stand in order, each once, and where the names of the list
are distinct, what stands under a name is what the list has for it. -/

namespace Muster.Json

variable {fields : List (String × Json)} {name : String} {value : Json}

/-- An object whose names stand in order, each once. -/
def IsOrdered : Json → Prop
  | .object fields => fields.Pairwise fun f g => f.1 < g.1
  | _ => False

theorem mem_insertField {f : String × Json} (h : f ∈ insertField name value fields) :
    f = (name, value) ∨ f ∈ fields := by
  induction fields with
  | nil => exact .inl (List.mem_singleton.mp h)
  | cons g gs ih =>
    simp only [insertField] at h
    split at h
    · exact List.mem_cons.mp h
    · split at h
      · exact (List.mem_cons.mp h).imp_right (List.mem_cons_of_mem g)
      · rcases List.mem_cons.mp h with rfl | h
        · exact .inr List.mem_cons_self
        · exact (ih h).imp_right (List.mem_cons_of_mem g)

theorem ordered_insertField (name : String) (value : Json)
    (h : fields.Pairwise fun f g => f.1 < g.1) :
    (insertField name value fields).Pairwise fun f g => f.1 < g.1 := by
  induction fields with
  | nil => exact List.pairwise_singleton _ _
  | cons g gs ih =>
    obtain ⟨hfirst, hrest⟩ := List.pairwise_cons.mp h
    simp only [insertField]
    split
    · rename_i hlt
      refine List.pairwise_cons.mpr ⟨fun f hf => ?_, h⟩
      rcases List.mem_cons.mp hf with rfl | hf
      · exact hlt
      · exact hlt.trans (hfirst f hf)
    · split
      · rename_i heq
        exact List.pairwise_cons.mpr ⟨fun f hf => heq ▸ hfirst f hf, hrest⟩
      · rename_i hle hne
        refine List.pairwise_cons.mpr ⟨fun f hf => ?_, ih hrest⟩
        rcases mem_insertField hf with rfl | hf
        · exact lt_of_le_of_ne (not_lt.mp hle) (Ne.symm hne)
        · exact hfirst f hf

theorem lookup_cons_eq_ite (f : String × Json) (fields : List (String × Json)) (name : String) :
    (f :: fields).lookup name = if name = f.1 then some f.2 else fields.lookup name := by
  rw [List.lookup_cons]
  split
  · rename_i h
    rw [if_pos (beq_iff_eq.mp h)]
  · rename_i h
    rw [if_neg (beq_eq_false_iff_ne.mp h)]

theorem lookup_insertField (name other : String) (value : Json) :
    (insertField name value fields).lookup other =
      if other = name then some value else fields.lookup other := by
  induction fields with
  | nil => exact lookup_cons_eq_ite (name, value) [] other
  | cons g gs ih =>
    simp only [insertField]
    split
    · exact lookup_cons_eq_ite (name, value) (g :: gs) other
    · split
      · rename_i heq
        rw [lookup_cons_eq_ite, lookup_cons_eq_ite, ← heq]
        by_cases h : other = name
        · rw [if_pos h, if_pos h]
        · rw [if_neg h, if_neg h, if_neg h]
      · rename_i hne
        rw [lookup_cons_eq_ite, lookup_cons_eq_ite, ih]
        by_cases h : other = g.1
        · rw [if_pos h, if_neg (fun h' => hne (h'.symm.trans h)), if_pos h]
        · rw [if_neg h, if_neg h]

theorem isOrdered_ofFields (fields : List (String × Json)) : (ofFields fields).IsOrdered := by
  induction fields using List.reverseRecOn with
  | nil => exact .nil
  | append_singleton fs f ih =>
    simp only [ofFields, List.foldl_concat]
    exact ordered_insertField f.1 f.2 ih

/-- Of the fields with one name the last counts. -/
theorem field?_ofFields (fields : List (String × Json)) (name : String) :
    (ofFields fields).field? name = fields.reverse.lookup name := by
  induction fields using List.reverseRecOn with
  | nil => rfl
  | append_singleton fs f ih =>
    simp only [ofFields, field?, List.foldl_concat, lookup_insertField] at ih ⊢
    rw [List.reverse_concat, lookup_cons_eq_ite, ih]

theorem field?_ofFields_of_mem (hnames : (fields.map Prod.fst).Nodup)
    (h : (name, value) ∈ fields) : (ofFields fields).field? name = some value := by
  obtain ⟨before, after, rfl⟩ := List.append_of_mem h
  rw [field?_ofFields, List.lookup_eq_some_iff]
  refine ⟨after.reverse, before.reverse, by simp, fun f hf => ?_⟩
  have hafter : name ∉ after.map Prod.fst := by
    rw [List.map_append, List.map_cons] at hnames
    exact (List.nodup_cons.mp (List.nodup_append.mp hnames).2.1).1
  have hne : name ≠ f.1 := fun heq => hafter (heq ▸ List.mem_map_of_mem (List.mem_reverse.mp hf))
  simpa using hne

theorem field?_ofFields_eq_none (h : ∀ f ∈ fields, f.1 ≠ name) :
    (ofFields fields).field? name = none := by
  rw [field?_ofFields, List.lookup_eq_none_iff]
  intro f hf
  simpa using (h f (List.mem_reverse.mp hf)).symm

end Muster.Json
