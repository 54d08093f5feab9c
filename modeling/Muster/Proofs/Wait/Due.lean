import Mathlib.Data.List.Sort
import Muster.Wait

/-! When the checks of a wait are due. Main statement: a pause lasts until the next check is due, whatever
values are sent before and during it. -/

namespace Muster

namespace Interrupts

/-- The values are in the order of their times, and none comes after the sender has gone. -/
structure Sorted (i : Interrupts) : Prop where
  values : i.values.Pairwise fun v v' => v.1 ≤ v'.1
  closed : ∀ t, i.closed? = some t → ∀ v ∈ i.values, v.1 ≤ t

/-- A value was sent by the given time that has not ended one of the pauses that were cut short. -/
def Unseen (i : Interrupts) (cuts : List Nat) (time : Nat) : Prop :=
  ∃ v ∈ i.values, v.1 ≤ time ∧ ∀ cut ∈ cuts, cut < v.1

theorem le_of_mem_inOrder {latest : Nat} {vs : List (Nat × Bool)} {v : Nat × Bool}
    (h : v ∈ inOrder latest vs) : latest ≤ v.1 := by
  induction vs generalizing latest with
  | nil => simp [inOrder] at h
  | cons u vs ih =>
    rcases List.mem_cons.mp h with rfl | h
    · exact Nat.le_max_left _ _
    · exact Nat.le_trans (Nat.le_max_left _ _) (ih h)

theorem pairwise_inOrder (latest : Nat) (vs : List (Nat × Bool)) :
    (inOrder latest vs).Pairwise fun v v' => v.1 ≤ v'.1 := by
  induction vs generalizing latest with
  | nil => exact .nil
  | cons u vs ih => exact .cons (fun v hv => le_of_mem_inOrder hv) (ih _)

theorem sorted_ofSchedule (values : List (Nat × Bool)) (closed? : Option Nat) :
    (ofSchedule values closed?).Sorted where
  values := (pairwise_inOrder 0 values).filter _
  closed t ht v hv := by
    obtain rfl : closed? = some t := ht
    exact of_decide_eq_true (List.mem_filter.mp hv).2

/-- The values that were sent by one of the pauses that were cut short. -/
def seen (i : Interrupts) (cuts : List Nat) : Nat :=
  i.values.countP fun v => cuts.any fun cut => v.1 ≤ cut

theorem countP_lt_countP_iff {β : Type} {xs : List β} {f g : β → Bool}
    (h : ∀ x, f x = true → g x = true) :
    xs.countP f < xs.countP g ↔ ∃ x ∈ xs, g x = true ∧ f x = false := by
  induction xs with
  | nil => simp
  | cons x xs ih =>
    have hle : xs.countP f ≤ xs.countP g := List.countP_mono_left fun x _ => h x
    cases hf : f x with
    | true => simp [hf, h x hf, ih]
    | false =>
      cases hg : g x with
      | true => simpa [List.countP_cons, hf, hg] using Nat.lt_succ_of_le hle
      | false => simp [hf, hg, ih]

theorem sent_of_cut {cuts : List Nat} {time sent : Nat} (hcuts : ∀ cut ∈ cuts, cut ≤ time)
    (h : (cuts.any fun cut => sent ≤ cut) = true) : sent ≤ time := by
  obtain ⟨cut, hcut, hle⟩ := List.any_eq_true.mp h
  exact Nat.le_trans (of_decide_eq_true hle) (hcuts cut hcut)

theorem seen_le_sentBy {i : Interrupts} {cuts : List Nat} {time : Nat}
    (hcuts : ∀ cut ∈ cuts, cut ≤ time) : i.seen cuts ≤ i.sentBy time :=
  List.countP_mono_left fun _ _ hv => decide_eq_true (sent_of_cut hcuts hv)

theorem seen_lt_iff {i : Interrupts} {cuts : List Nat} {time : Nat}
    (hcuts : ∀ cut ∈ cuts, cut ≤ time) :
    i.seen cuts < i.sentBy time ↔ i.Unseen cuts time := by
  rw [seen, sentBy, countP_lt_countP_iff fun _ hv => decide_eq_true (sent_of_cut hcuts hv)]
  simp [Unseen]

theorem seen_cons {i : Interrupts} {cuts : List Nat} {time : Nat}
    (hcuts : ∀ cut ∈ cuts, cut ≤ time) : i.seen (time :: cuts) = i.sentBy time := by
  refine List.countP_congr fun v _ => ?_
  simp only [List.any_cons, Bool.or_eq_true, decide_eq_true_eq]
  exact ⟨fun h => h.elim id (sent_of_cut hcuts), .inl⟩

theorem flagAt_congr {i : Interrupts} {time time' : Nat}
    (h : ∀ v ∈ i.values, v.1 ≤ time ↔ v.1 ≤ time') : i.flagAt time = i.flagAt time' := by
  have hfilter : i.values.filter (fun v => v.1 ≤ time) = i.values.filter fun v => v.1 ≤ time' :=
    List.filter_congr fun v hv => decide_eq_decide.mpr (h v hv)
  rw [flagAt, flagAt, hfilter]

/-- The value that counts at a time, which is the last that was sent by then. -/
def current? (i : Interrupts) (time : Nat) : Option (Nat × Bool) :=
  (i.values.filter fun v => v.1 ≤ time).getLast?

theorem flagAt_of_current {i : Interrupts} {time sent : Nat} {value : Bool}
    (h : i.current? time = some (sent, value)) : i.flagAt time = value := by
  rw [current?] at h
  rw [flagAt, h]

theorem sent_of_current {i : Interrupts} (hsorted : i.Sorted) {time : Nat} {v : Nat × Bool}
    (h : i.current? time = some v) :
    v ∈ i.values ∧ v.1 ≤ time ∧ ∀ u ∈ i.values, u.1 ≤ time → u.1 ≤ v.1 := by
  have hv : v ∈ i.values ∧ v.1 ≤ time := by simpa using List.mem_of_getLast? h
  refine ⟨hv.1, hv.2, fun u hu hle => ?_⟩
  obtain ⟨earlier, hsplit⟩ := List.getLast?_eq_some_iff.mp h
  have hpairwise : (earlier ++ [v]).Pairwise fun v v' => v.1 ≤ v'.1 := by
    rw [← hsplit]
    exact hsorted.values.filter _
  have hmem : u ∈ earlier ++ [v] := by
    rw [← hsplit]
    exact List.mem_filter.mpr ⟨hu, decide_eq_true hle⟩
  rcases List.mem_append.mp hmem with hmem | hmem
  · exact (List.pairwise_append.mp hpairwise).2.2 u hmem v (List.mem_singleton_self v)
  · exact Nat.le_of_eq (congrArg Prod.fst (List.mem_singleton.mp hmem))

/-- The first value after a time, if there is one. -/
theorem find_after {i : Interrupts} (hsorted : i.Sorted) (now : Nat) :
    match i.values.find? fun v => now < v.1 with
    | some v => v ∈ i.values ∧ now < v.1 ∧ ∀ v' ∈ i.values, now < v'.1 → v.1 ≤ v'.1
    | none => ∀ v ∈ i.values, v.1 ≤ now := by
  split
  · rename_i v hv
    obtain ⟨hlt, before, after, hsplit, hbefore⟩ := List.find?_eq_some_iff_append.mp hv
    refine ⟨List.mem_of_find?_eq_some hv, by simpa using hlt, fun v' hv' hlt' => ?_⟩
    have hafter : ∀ u ∈ after, v.1 ≤ u.1 := by
      have hpairwise : (before ++ v :: after).Pairwise fun v v' => v.1 ≤ v'.1 := by
        rw [← hsplit]
        exact hsorted.values
      exact (List.pairwise_cons.mp (List.pairwise_append.mp hpairwise).2.1).1
    rw [hsplit, List.mem_append, List.mem_cons] at hv'
    rcases hv' with hv' | rfl | hv'
    · have hnot := hbefore v' hv'
      simp [hlt'] at hnot
    · exact Nat.le_refl _
    · exact hafter v' hv'
  · rename_i hnone
    simpa using hnone

/-- Where there is no value left to be sent, a pause lasts to its end, whenever the sender goes. -/
theorem pause_of_gone {i : Interrupts} (hsorted : i.Sorted) {now seen t : Nat}
    (hgone : i.closed? = some t) (hseen : i.sentBy now ≤ seen)
    (hlast : t ≤ now ∨ ∀ v ∈ i.values, v.1 ≤ now) (wake : Nat) :
    i.pause now seen wake = (wake, seen) := by
  have hnone : ∀ v ∈ i.values, v.1 ≤ now := by
    intro v hv
    rcases hlast with hbefore | hlast
    · exact Nat.le_trans (hsorted.closed t hgone v hv) hbefore
    · exact hlast v hv
  refine pause_of_silence (fun time htime => ?_) wake
  rcases news?_eq_value htime with ⟨-, hunseen⟩ | ⟨-, v, hv, -⟩
  · exact absurd hunseen (Nat.not_lt_of_le hseen)
  · have hlater : now < v.1 := by simpa using List.find?_some hv
    exact absurd hlater (Nat.not_lt_of_le (hnone v (List.mem_of_find?_eq_some hv)))

/-- What is heard is the first value that has not been seen, or else nothing is sent any more. -/
theorem silent_of_news {i : Interrupts} (hsorted : i.Sorted) {now seen : Nat}
    (h : ∀ time, i.news? now seen ≠ some (.value time)) : ∀ v ∈ i.values, v.1 ≤ now := by
  obtain ⟨-, ⟨t, hgone, hbefore⟩ | hnone⟩ := news?_ne_value h
  · exact fun v hv => Nat.le_trans (hsorted.closed t hgone v hv) hbefore
  · simpa using hnone

end Interrupts

namespace WaitPolicy

/-- When the check after the given one is due if nothing cuts the pause short. -/
def planned (p : WaitPolicy) (deadline : Nat) (c : Check) : Nat :=
  min (c.ended + p.interval) deadline

/-- The times at which a value cut a pause short. Checks and times are given with the latest first. -/
def cuts (p : WaitPolicy) (deadline : Nat) : List Check → List Nat
  | [] => []
  | [_] => []
  | next :: c :: past =>
    if next.began < p.planned deadline c then next.began :: p.cuts deadline (c :: past)
    else p.cuts deadline (c :: past)

/-- When the check after those of a list is due, whose latest is first. -/
inductive Due (p : WaitPolicy) (start deadline : Nat) : List Check → Nat → Prop where
  | first : Due p start deadline [] start
  | unseen {c : Check} {past : List Check} :
    p.interrupts.Unseen (p.cuts deadline (c :: past)) c.ended →
    Due p start deadline (c :: past) c.ended
  | sent {c : Check} {past : List Check} {time : Nat} {value : Bool} :
    ¬ p.interrupts.Unseen (p.cuts deadline (c :: past)) c.ended →
    (time, value) ∈ p.interrupts.values → c.ended < time → time < p.planned deadline c →
    (∀ v ∈ p.interrupts.values, c.ended < v.1 → time ≤ v.1) →
    Due p start deadline (c :: past) time
  | planned {c : Check} {past : List Check} :
    ¬ p.interrupts.Unseen (p.cuts deadline (c :: past)) c.ended →
    (∀ v ∈ p.interrupts.values, c.ended < v.1 → p.planned deadline c ≤ v.1) →
    Due p start deadline (c :: past) (p.planned deadline c)

variable {p : WaitPolicy} {start deadline : Nat} {checks : List Check}

theorem Due.unique {time time' : Nat} (h : p.Due start deadline checks time)
    (h' : p.Due start deadline checks time') : time = time' := by
  cases h with
  | first =>
    cases h'
    rfl
  | unseen hunseen =>
    cases h' with
    | unseen => rfl
    | sent hnone => exact absurd hunseen hnone
    | planned hnone => exact absurd hunseen hnone
  | sent hnone hmem hlt hbefore hleast =>
    cases h' with
    | unseen hunseen => exact absurd hunseen hnone
    | sent _ hmem' hlt' _ hleast' => exact Nat.le_antisymm (hleast _ hmem' hlt') (hleast' _ hmem hlt)
    | planned _ hlate => exact absurd (hlate _ hmem hlt) (Nat.not_le_of_lt hbefore)
  | planned hnone hlate =>
    cases h' with
    | unseen hunseen => exact absurd hunseen hnone
    | sent _ hmem hlt hbefore => exact absurd (hlate _ hmem hlt) (Nat.not_le_of_lt hbefore)
    | planned => rfl

theorem Due.bounds {c : Check} {past : List Check} {time : Nat}
    (h : p.Due start deadline (c :: past) time) (hended : c.ended < deadline) :
    c.ended ≤ time ∧ time ≤ p.planned deadline c := by
  have hplanned : c.ended < p.planned deadline c := by
    have := p.interval_pos
    simp only [WaitPolicy.planned]
    omega
  cases h with
  | unseen => exact ⟨Nat.le_refl _, Nat.le_of_lt hplanned⟩
  | sent _ _ hlt hbefore => exact ⟨Nat.le_of_lt hlt, Nat.le_of_lt hbefore⟩
  | planned => exact ⟨Nat.le_of_lt hplanned, Nat.le_refl _⟩

/-- A pause after a check lasts until the next is due. It has seen the values that it was cut short by,
and those before them. -/
theorem due_of_pause (hsorted : p.interrupts.Sorted) {c : Check} {past : List Check}
    (hended : c.ended < deadline) (hcuts : ∀ cut ∈ p.cuts deadline (c :: past), cut ≤ c.ended) :
    let next := p.interrupts.pause c.ended (p.interrupts.seen (p.cuts deadline (c :: past)))
      (p.planned deadline c)
    p.Due start deadline (c :: past) next.1 ∧
      ∀ ended, next.2 = p.interrupts.seen (p.cuts deadline (⟨next.1, ended⟩ :: c :: past)) := by
  have hplanned : c.ended < p.planned deadline c := by
    have := p.interval_pos
    simp only [WaitPolicy.planned]
    omega
  intro next
  by_cases hnews : ∃ time, p.interrupts.news? c.ended
      (p.interrupts.seen (p.cuts deadline (c :: past))) = some (.value time)
  · obtain ⟨time, htime⟩ := hnews
    have hnext : next = _ := Interrupts.pause_of_value htime (p.planned deadline c)
    rcases Interrupts.news?_eq_value htime with ⟨rfl, hunseen⟩ | ⟨hseen, v, hv, rfl⟩
    · rw [hnext, if_pos hplanned]
      refine ⟨.unseen ((Interrupts.seen_lt_iff hcuts).mp hunseen), fun ended => ?_⟩
      rw [cuts, if_pos hplanned, Interrupts.seen_cons hcuts]
      exact Nat.max_eq_right (Nat.le_of_lt hunseen)
    · have hnone := mt (Interrupts.seen_lt_iff hcuts).mpr (Nat.not_lt_of_le hseen)
      obtain ⟨hmem, hlt, hleast⟩ : v ∈ p.interrupts.values ∧ c.ended < v.1 ∧
          ∀ v' ∈ p.interrupts.values, c.ended < v'.1 → v.1 ≤ v'.1 := by
        simpa only [hv] using Interrupts.find_after hsorted c.ended
      have hcuts' : ∀ cut ∈ p.cuts deadline (c :: past), cut ≤ v.1 :=
        fun cut hcut => Nat.le_trans (hcuts cut hcut) (Nat.le_of_lt hlt)
      rw [hnext]
      split
      · rename_i hbefore
        refine ⟨.sent hnone hmem hlt hbefore hleast, fun ended => ?_⟩
        rw [cuts, if_pos hbefore, Interrupts.seen_cons hcuts']
        exact Nat.max_eq_right (Interrupts.seen_le_sentBy hcuts')
      · rename_i hlate
        refine ⟨.planned hnone fun u hu hu' => ?_, fun ended => ?_⟩
        · exact Nat.le_trans (Nat.le_of_not_lt hlate) (hleast u hu hu')
        · rw [cuts, if_neg (Nat.lt_irrefl _)]
  · have hnews := not_exists.mp hnews
    have hnext : next = _ := Interrupts.pause_of_silence hnews (p.planned deadline c)
    have hseen := (Interrupts.news?_ne_value hnews).1
    have hnone := mt (Interrupts.seen_lt_iff hcuts).mpr (Nat.not_lt_of_le hseen)
    rw [hnext]
    refine ⟨.planned hnone fun u hu hu' => ?_, fun ended => ?_⟩
    · exact absurd hu' (Nat.not_lt_of_le (Interrupts.silent_of_news hsorted hnews u hu))
    · rw [cuts, if_neg (Nat.lt_irrefl _)]

end WaitPolicy

end Muster
