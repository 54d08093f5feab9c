import Mathlib.Data.Finset.Card
import Mathlib.Data.List.Induction
import Mathlib.Data.List.Nodup
import Mathlib.Order.Defs.LinearOrder
import Muster.Candidates

/-! The resources that an argument fits best. Main statement: what is gathered one name at a time are the
identifiers of the greatest rank, each once, in the order in which each of them first fitted. -/

namespace Muster

namespace Strength

theorem rank_injective : Function.Injective rank := by
  intro a b h
  cases a <;> cases b <;> first | rfl | simp [rank] at h

instance : LinearOrder Strength where
  le_refl a := Nat.le_refl a.rank
  le_trans _ _ _ := Nat.le_trans
  le_antisymm _ _ h h' := rank_injective (Nat.le_antisymm h h')
  le_total a b := Nat.le_total a.rank b.rank
  toDecidableLE := inferInstance
  lt_iff_le_not_ge _ _ := Iff.rfl

theorem none_le (s : Strength) : .none ≤ s := Nat.zero_le s.rank

theorem eq_none_of_le {s : Strength} (h : s ≤ .none) : s = .none := le_antisymm h (none_le s)

def greatest (l : List Strength) : Strength := l.foldl max .none

theorem greatest_concat (l : List Strength) (s : Strength) :
    greatest (l ++ [s]) = max (greatest l) s := by simp [greatest]

theorem le_greatest {l : List Strength} {s : Strength} (h : s ∈ l) : s ≤ greatest l := by
  induction l using List.reverseRecOn with
  | nil => simp at h
  | append_singleton l t ih =>
    rw [greatest_concat]
    rcases List.mem_append.mp h with h | h
    · exact le_trans (ih h) (le_max_left _ _)
    · obtain rfl := List.mem_singleton.mp h
      exact le_max_right _ _

theorem greatest_mem (l : List Strength) : greatest l = .none ∨ greatest l ∈ l := by
  induction l using List.reverseRecOn with
  | nil => exact .inl rfl
  | append_singleton l t ih =>
    rw [greatest_concat]
    rcases le_total t (greatest l) with h | h
    · rw [max_eq_left h]
      exact ih.imp_right (List.mem_append_left _)
    · rw [max_eq_right h]
      exact .inr (by simp)

end Strength

/-- How well an argument fits a resource: by its names or by its identifier, whichever is better. -/
def Kind.fit : (k : Kind) → String → k.Resource → Strength
  | .server, arg, s =>
    max (max (.ofName arg s.hostname) (.ofName arg s.title)) (.ofIdentifier arg s.uuid)
  | .network, arg, n => max (.ofName arg n.name) (.ofIdentifier arg n.uuid)
  | .storage, arg, s => max (.ofName arg s.title) (.ofIdentifier arg s.uuid)

namespace Candidates

/-- How well an argument fits the resources with the given identifier at best. -/
def rank (k : Kind) (items : List k.Resource) (arg uuid : String) : Strength :=
  .greatest ((items.filter fun r => k.uuid r == uuid).map (k.fit arg))

def topRank (k : Kind) (items : List k.Resource) (arg : String) : Strength :=
  .greatest (items.map fun r => rank k items arg (k.uuid r))

/-- The place of the first resource with the given identifier that an argument fits at all. -/
def firstFit (k : Kind) (items : List k.Resource) (arg uuid : String) : Nat :=
  items.findIdx fun r => k.uuid r == uuid && k.fit arg r != .none

section Raise

variable {uuid : String} {s : Strength} {found : List (String × Strength)}

theorem raise_raise (uuid : String) (s t : Strength) (found : List (String × Strength)) :
    raise uuid t (raise uuid s found) = raise uuid (max s t) found := by
  induction found with
  | nil => simp [raise]
  | cons f fs ih =>
    by_cases h : f.1 = uuid
    · simp [raise, h, max_assoc]
    · simp [raise, h, ih]

theorem add_add (c : Candidates) (uuid : String) (s t : Strength) :
    (c.add uuid s).add uuid t = c.add uuid (max s t) := by
  by_cases hs : s = .none
  · rw [hs, max_eq_right (Strength.none_le t)]
    simp [add]
  · by_cases ht : t = .none
    · rw [ht, max_eq_left (Strength.none_le s)]
      simp [add]
    · have hmax : max s t ≠ .none := fun h => hs (Strength.eq_none_of_le (h ▸ le_max_left s t))
      simp [add, hs, ht, hmax, raise_raise]

theorem keys_raise (uuid : String) (s : Strength) (found : List (String × Strength)) :
    (raise uuid s found).map (·.1) =
      if uuid ∈ found.map (·.1) then found.map (·.1) else found.map (·.1) ++ [uuid] := by
  induction found with
  | nil => simp [raise]
  | cons f fs ih =>
    by_cases h : f.1 = uuid
    · simp [raise, h]
    · have hne : uuid ≠ f.1 := Ne.symm h
      simp only [raise, if_neg h, List.map_cons, ih, List.mem_cons, hne, false_or]
      split <;> rfl

theorem mem_raise_self (hnodup : (found.map (·.1)).Nodup) (t : Strength) :
    (uuid, t) ∈ raise uuid s found ↔
      (∃ t₀, (uuid, t₀) ∈ found ∧ t = max t₀ s) ∨ uuid ∉ found.map (·.1) ∧ t = s := by
  induction found with
  | nil => simp [raise]
  | cons f fs ih =>
    obtain ⟨hnew, hrest⟩ := List.nodup_cons.mp hnodup
    obtain ⟨key, t₁⟩ := f
    by_cases h : key = uuid
    · subst h
      have hother : ∀ t₀, (key, t₀) ∉ fs := fun t₀ hmem =>
        hnew (List.mem_map.mpr ⟨_, hmem, rfl⟩)
      simp [raise, hother]
    · simpa [raise, h, Ne.symm h] using ih hrest

theorem mem_raise_other {u : String} (hu : u ≠ uuid) (t : Strength) :
    (u, t) ∈ raise uuid s found ↔ (u, t) ∈ found := by
  induction found with
  | nil => simp [raise, hu]
  | cons f fs ih =>
    obtain ⟨key, t₁⟩ := f
    by_cases h : key = uuid
    · simp [raise, h, hu]
    · simp [raise, h, ih]

end Raise

section Among

variable {k : Kind} {items : List k.Resource} {arg : String}

theorem among_concat (k : Kind) (items : List k.Resource) (r : k.Resource) (arg : String) :
    among k (items ++ [r]) arg = (among k items arg).add (k.uuid r) (k.fit arg r) := by
  rw [among, List.foldl_append]
  change (List.foldl _ (among k items arg) _).add _ _ = _
  cases k with
  | server => simp only [Kind.names, List.foldl_cons, List.foldl_nil, add_add]; rfl
  | network => simp only [Kind.names, List.foldl_cons, List.foldl_nil, add_add]; rfl
  | storage => simp only [Kind.names, List.foldl_cons, List.foldl_nil, add_add]; rfl

theorem rank_concat (items : List k.Resource) (r : k.Resource) (arg uuid : String) :
    rank k (items ++ [r]) arg uuid =
      if k.uuid r = uuid then max (rank k items arg uuid) (k.fit arg r)
      else rank k items arg uuid := by
  by_cases h : k.uuid r = uuid
  · simp [rank, List.filter_append, h, Strength.greatest_concat]
  · simp [rank, List.filter_append, h]

theorem fits_of_rank {uuid : String} (h : rank k items arg uuid ≠ .none) :
    ∃ r ∈ items, k.uuid r = uuid ∧ k.fit arg r ≠ .none := by
  rcases Strength.greatest_mem ((items.filter fun r => k.uuid r == uuid).map (k.fit arg)) with
    hnone | hmem
  · exact absurd hnone h
  · obtain ⟨r, hr, hfit⟩ := List.mem_map.mp hmem
    obtain ⟨hitem, huuid⟩ := List.mem_filter.mp hr
    refine ⟨r, hitem, by simpa using huuid, ?_⟩
    rw [hfit]
    exact h

theorem firstFit_lt {uuid : String} (h : rank k items arg uuid ≠ .none) :
    firstFit k items arg uuid < items.length := by
  obtain ⟨r, hr, huuid, hfit⟩ := fits_of_rank h
  exact List.findIdx_lt_length_of_exists ⟨r, hr, by simp [huuid, hfit]⟩

theorem firstFit_concat_of_lt {uuid : String} (r : k.Resource)
    (h : firstFit k items arg uuid < items.length) :
    firstFit k (items ++ [r]) arg uuid = firstFit k items arg uuid := by
  simp only [firstFit, List.findIdx_append] at h ⊢
  rw [if_pos h]

theorem firstFit_concat_self {r : k.Resource} (hrank : rank k items arg (k.uuid r) = .none)
    (hfit : k.fit arg r ≠ .none) :
    firstFit k (items ++ [r]) arg (k.uuid r) = items.length := by
  have hnew : firstFit k items arg (k.uuid r) = items.length := by
    refine List.findIdx_eq_length.mpr fun r' hr' => ?_
    by_cases huuid : k.uuid r' = k.uuid r
    · have hle : k.fit arg r' ≤ rank k items arg (k.uuid r) :=
        Strength.le_greatest (List.mem_map.mpr ⟨r', List.mem_filter.mpr ⟨hr', by simp [huuid]⟩, rfl⟩)
      rw [hrank] at hle
      simp [Strength.eq_none_of_le hle]
    · simp [huuid]
  have hfits : (k.fit arg r != .none) = true := by simpa using hfit
  simp only [firstFit] at hnew
  simp [firstFit, List.findIdx_append, hnew, hfits, List.findIdx_cons]

/-- What has been found among some resources: identifiers that the argument fits, with their ranks, in
the order in which they were first found. -/
structure Ranked (k : Kind) (items : List k.Resource) (arg : String) (c : Candidates) : Prop where
  arg_eq : c.arg = arg
  nodup : (c.found.map (·.1)).Nodup
  mem : ∀ u s, (u, s) ∈ c.found ↔ s ≠ .none ∧ rank k items arg u = s
  order : (c.found.map (·.1)).Pairwise fun u v => firstFit k items arg u < firstFit k items arg v

namespace Ranked

variable {c : Candidates}

theorem mem_keys (h : Ranked k items arg c) (u : String) :
    u ∈ c.found.map (·.1) ↔ rank k items arg u ≠ .none := by
  constructor
  · intro hu
    obtain ⟨⟨_, s⟩, hmem, rfl⟩ := List.mem_map.mp hu
    obtain ⟨hs, hrank⟩ := (h.mem _ _).mp hmem
    rwa [hrank]
  · intro hu
    exact List.mem_map.mpr ⟨(u, _), (h.mem _ _).mpr ⟨hu, rfl⟩, rfl⟩

theorem start (k : Kind) (arg : String) : Ranked k [] arg { arg } where
  arg_eq := rfl
  nodup := by simp
  mem u s := by
    simp only [List.not_mem_nil, false_iff]
    rintro ⟨hs, hrank⟩
    exact hs hrank.symm
  order := by simp

theorem order_concat (h : Ranked k items arg c) (r : k.Resource) :
    (c.found.map (·.1)).Pairwise fun u v =>
      firstFit k (items ++ [r]) arg u < firstFit k (items ++ [r]) arg v := by
  refine h.order.imp_of_mem fun hu hv hlt => ?_
  rwa [firstFit_concat_of_lt r (firstFit_lt ((h.mem_keys _).mp hu)),
    firstFit_concat_of_lt r (firstFit_lt ((h.mem_keys _).mp hv))]

theorem concat_of_none (h : Ranked k items arg c) {r : k.Resource} (hfit : k.fit arg r = .none) :
    Ranked k (items ++ [r]) arg c where
  arg_eq := h.arg_eq
  nodup := h.nodup
  mem u s := by
    rw [rank_concat, hfit, max_eq_left (Strength.none_le _), ite_self]
    exact h.mem u s
  order := h.order_concat r

theorem mem_raise (h : Ranked k items arg c) {r : k.Resource} (hfit : k.fit arg r ≠ .none)
    (u : String) (s : Strength) :
    (u, s) ∈ raise (k.uuid r) (k.fit arg r) c.found ↔
      s ≠ .none ∧ rank k (items ++ [r]) arg u = s := by
  rw [rank_concat]
  by_cases hu : u = k.uuid r
  · subst hu
    rw [mem_raise_self h.nodup, if_pos rfl, h.mem_keys]
    have hmax : ∀ t, max t (k.fit arg r) ≠ .none := fun t ht =>
      hfit (Strength.eq_none_of_le (ht ▸ le_max_right t _))
    constructor
    · rintro (⟨t, ht, rfl⟩ | ⟨hnone, rfl⟩)
      · exact ⟨hmax t, by rw [((h.mem _ _).mp ht).2]⟩
      · rw [not_not.mp hnone, max_eq_right (Strength.none_le _)]
        exact ⟨hfit, rfl⟩
    · rintro ⟨-, rfl⟩
      by_cases hrank : rank k items arg (k.uuid r) = .none
      · exact .inr ⟨not_not.mpr hrank, by rw [hrank, max_eq_right (Strength.none_le _)]⟩
      · exact .inl ⟨_, (h.mem _ _).mpr ⟨hrank, rfl⟩, rfl⟩
  · rw [mem_raise_other hu, if_neg (Ne.symm hu)]
    exact h.mem u s

theorem concat (h : Ranked k items arg c) (r : k.Resource) :
    Ranked k (items ++ [r]) arg (c.add (k.uuid r) (k.fit arg r)) := by
  by_cases hfit : k.fit arg r = .none
  · rw [add, if_pos hfit]
    exact h.concat_of_none hfit
  rw [add, if_neg hfit]
  by_cases hkey : k.uuid r ∈ c.found.map (·.1)
  · refine ⟨h.arg_eq, ?_, h.mem_raise hfit, ?_⟩
    · rw [keys_raise, if_pos hkey]
      exact h.nodup
    · rw [keys_raise, if_pos hkey]
      exact h.order_concat r
  · have hrank : rank k items arg (k.uuid r) = .none := not_not.mp fun hne =>
      hkey ((h.mem_keys _).mpr hne)
    refine ⟨h.arg_eq, ?_, h.mem_raise hfit, ?_⟩
    · rw [keys_raise, if_neg hkey]
      exact List.nodup_append.mpr ⟨h.nodup, List.nodup_singleton _, by
        rintro u hu _ hr rfl
        exact hkey (List.mem_singleton.mp hr ▸ hu)⟩
    · rw [keys_raise, if_neg hkey]
      refine List.pairwise_append.mpr ⟨h.order_concat r, List.pairwise_singleton _ _, ?_⟩
      rintro u hu _ hr
      obtain rfl := List.mem_singleton.mp hr
      have hlt := firstFit_lt ((h.mem_keys u).mp hu)
      rw [firstFit_concat_self hrank hfit, firstFit_concat_of_lt r hlt]
      exact hlt

theorem among (k : Kind) (items : List k.Resource) (arg : String) :
    Ranked k items arg (Candidates.among k items arg) := by
  induction items using List.reverseRecOn with
  | nil => exact start k arg
  | append_singleton items r ih =>
    rw [among_concat]
    exact ih.concat r

theorem strongest_eq (h : Ranked k items arg c) : c.strongest = topRank k items arg := by
  have hstrongest : c.strongest = .greatest (c.found.map (·.2)) := by
    simp [strongest, Strength.greatest, List.foldl_map]
  rw [hstrongest]
  refine le_antisymm ?_ ?_
  · rcases Strength.greatest_mem (c.found.map (·.2)) with hnone | hmem
    · rw [hnone]
      exact Strength.none_le _
    · obtain ⟨⟨u, s⟩, hfound, hs⟩ := List.mem_map.mp hmem
      obtain ⟨hne, hrank⟩ := (h.mem u s).mp hfound
      obtain ⟨r, hr, rfl, -⟩ := fits_of_rank (hrank ▸ hne)
      rw [← hs, ← hrank]
      exact Strength.le_greatest (List.mem_map.mpr ⟨r, hr, rfl⟩)
  · rcases Strength.greatest_mem (items.map fun r => rank k items arg (k.uuid r)) with hnone | hmem
    · rw [topRank, hnone]
      exact Strength.none_le _
    · obtain ⟨r, -, hrank⟩ := List.mem_map.mp hmem
      by_cases hne : rank k items arg (k.uuid r) = .none
      · rw [topRank, ← hrank, hne]
        exact Strength.none_le _
      · rw [topRank, ← hrank]
        exact Strength.le_greatest (List.mem_map.mpr ⟨_, (h.mem _ _).mpr ⟨hne, rfl⟩, rfl⟩)

theorem mem_best (h : Ranked k items arg c) (u : String) :
    u ∈ c.best ↔ topRank k items arg ≠ .none ∧ rank k items arg u = topRank k items arg := by
  simp only [best, List.mem_map, List.mem_filter, beq_iff_eq, h.strongest_eq]
  constructor
  · rintro ⟨⟨_, s⟩, ⟨hmem, rfl⟩, rfl⟩
    exact (h.mem _ _).mp hmem
  · intro hu
    exact ⟨(u, _), ⟨(h.mem _ _).mpr hu, rfl⟩, rfl⟩

theorem best_sublist (c : Candidates) : c.best.Sublist (c.found.map (·.1)) :=
  List.filter_sublist.map _

theorem best_ne_nil (h : Ranked k items arg c) : c.best ≠ [] ↔ topRank k items arg ≠ .none := by
  constructor
  · intro hne
    obtain ⟨u, hu⟩ := List.exists_mem_of_ne_nil _ hne
    exact ((h.mem_best u).mp hu).1
  · intro htop
    rcases Strength.greatest_mem (items.map fun r => rank k items arg (k.uuid r)) with hnone | hmem
    · exact absurd hnone htop
    · obtain ⟨r, -, hrank⟩ := List.mem_map.mp hmem
      exact List.ne_nil_of_mem ((h.mem_best (k.uuid r)).mpr ⟨htop, hrank⟩)

end Ranked

theorem all_of_best {c : Candidates} (h : c.best ≠ []) : c.all = .ok c.best := by
  unfold all
  split
  · rename_i hnil
    exact absurd hnil h
  · rfl

theorem only_eq_ok {c : Candidates} {u : String} : c.only = .ok u ↔ c.best = [u] := by
  unfold only
  split
  · rename_i hbest
    simp [hbest]
  · rename_i uuid hbest
    simp [hbest]
  · rename_i more hnil hone
    simp only [reduceCtorEq, false_iff]
    exact fun h => hone u h

theorem only_of_many {c : Candidates} (hnil : c.best ≠ []) (hone : ∀ u, c.best ≠ [u]) :
    c.only = .error (.ambiguous c.arg c.best.length) := by
  unfold only
  split
  · rename_i hbest
    exact absurd hbest hnil
  · rename_i uuid hbest
    exact absurd hbest (hone uuid)
  · rfl

theorem mem_best_of_only {c : Candidates} {uuid : String} (h : c.only = .ok uuid) :
    uuid ∈ c.best := by
  rw [only_eq_ok.mp h]
  exact List.mem_singleton_self uuid

theorem mem_best_of_all {c : Candidates} {uuids : List String} (h : c.all = .ok uuids)
    {uuid : String} (hmem : uuid ∈ uuids) : uuid ∈ c.best := by
  by_cases hbest : c.best = []
  · simp [all, hbest] at h
  · rw [all_of_best hbest] at h
    cases h
    exact hmem

/-- What an argument stands for among some resources. If it fits none, that is nothing. Otherwise it
stands for the identifiers of the greatest rank, and for one of them only if there is just that one. -/
theorem among_greatest_rank (k : Kind) (items : List k.Resource) (arg : String) :
    let c := among k items arg
    let top := topRank k items arg
    (top = .none → c.only = .error (.notFound arg) ∧ c.all = .error (.notFound arg)) ∧
    (top ≠ .none → ∃ uuids, c.all = .ok uuids ∧
      (∀ u, u ∈ uuids ↔ rank k items arg u = top) ∧ uuids.Nodup ∧
      uuids.Pairwise (fun u v => firstFit k items arg u < firstFit k items arg v) ∧
      (∀ u, c.only = .ok u ↔ uuids = [u]) ∧
      ((∀ u, uuids ≠ [u]) → c.only = .error (.ambiguous arg uuids.length))) := by
  intro c top
  have h : Ranked k items arg c := .among k items arg
  constructor
  · intro htop
    have hbest : c.best = [] := not_not.mp fun hne => h.best_ne_nil.mp hne htop
    simp [only, all, hbest, h.arg_eq]
  · intro htop
    have hbest := h.best_ne_nil.mpr htop
    refine ⟨c.best, all_of_best hbest, fun u => ?_, h.nodup.sublist (Ranked.best_sublist c),
      h.order.sublist (Ranked.best_sublist c), fun u => only_eq_ok, fun hone => ?_⟩
    · rw [h.mem_best u, and_iff_right htop]
    · rw [only_of_many hbest hone, h.arg_eq]

/-- The identifiers that an argument fits best, none if it fits nothing. -/
def bestFits (k : Kind) (items : List k.Resource) (arg : String) : Finset String :=
  ((items.map k.uuid).filter fun u =>
    topRank k items arg ≠ .none ∧ rank k items arg u = topRank k items arg).toFinset

theorem mem_bestFits {u : String} :
    u ∈ bestFits k items arg ↔
      topRank k items arg ≠ .none ∧ rank k items arg u = topRank k items arg := by
  simp only [bestFits, List.mem_toFinset, List.mem_filter, decide_eq_true_eq, and_iff_right_iff_imp]
  rintro ⟨htop, hrank⟩
  obtain ⟨r, hr, huuid, -⟩ := fits_of_rank (hrank ▸ htop)
  exact List.mem_map.mpr ⟨r, hr, huuid⟩

theorem exists_of_mem_bestFits {u : String} (h : u ∈ bestFits k items arg) :
    ∃ item ∈ items, k.uuid item = u := by
  simp only [bestFits, List.mem_toFinset, List.mem_filter] at h
  exact List.mem_map.mp h.1

/-- What an argument fits best is found by its identifier too. -/
theorem find_of_mem_best {uuid : String} (h : uuid ∈ (among k items arg).best) :
    ∃ item, items.find? (fun r => k.uuid r == uuid) = some item ∧ k.uuid item = uuid := by
  have hfits : uuid ∈ bestFits k items arg :=
    mem_bestFits.mpr (((Ranked.among k items arg).mem_best uuid).mp h)
  obtain ⟨fitting, hmem, huuid⟩ := exists_of_mem_bestFits hfits
  have hfound : (items.find? fun r => k.uuid r == uuid).isSome :=
    List.find?_isSome.mpr ⟨fitting, hmem, beq_iff_eq.mpr huuid⟩
  obtain ⟨item, hitem⟩ := Option.isSome_iff_exists.mp hfound
  exact ⟨item, hitem, by simpa using List.find?_some hitem⟩

theorem only_eq_ok_iff {u : String} :
    (among k items arg).only = .ok u ↔ bestFits k items arg = {u} := by
  have h : Ranked k items arg (among k items arg) := .among k items arg
  have hbest : (among k items arg).best.toFinset = bestFits k items arg := by
    ext v
    rw [List.mem_toFinset, h.mem_best v, mem_bestFits]
  have hnodup : (among k items arg).best.Nodup := h.nodup.sublist (Ranked.best_sublist _)
  rw [only_eq_ok, ← hbest]
  constructor
  · intro hone
    simp [hone]
  · intro hone
    have hlength : (among k items arg).best.length = 1 := by
      rw [← List.toFinset_card_of_nodup hnodup, hone, Finset.card_singleton]
    obtain ⟨v, hv⟩ := List.length_eq_one_iff.mp hlength
    simpa [hv] using hone

end Among

end Candidates

end Muster
