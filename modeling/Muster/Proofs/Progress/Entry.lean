import Mathlib.Data.List.GetD
import Muster.Progress.Entry

/-! How entries change over time. An entry never goes back to an earlier phase, and what is known of its
start and its end stays known. -/

namespace Muster.Progress

def Phase.rank : Phase → Nat
  | .pending => 0
  | .inProgress => 1
  | .done => 2

namespace Entry

structure Precedes (e e' : Entry) : Prop where
  phase : e.stage.phase.rank ≤ e'.stage.phase.rank
  since : ∀ t, e.stage.since? = some t → e'.stage.since? = some t
  outcome : ∀ o, e.stage.outcome? = some o → e'.stage.outcome? = some o

theorem Precedes.refl (e : Entry) : e.Precedes e :=
  ⟨Nat.le_refl _, fun _ h => h, fun _ h => h⟩

theorem Precedes.trans {e₁ e₂ e₃ : Entry} (h : e₁.Precedes e₂) (h' : e₂.Precedes e₃) :
    e₁.Precedes e₃ :=
  ⟨Nat.le_trans h.phase h'.phase, fun t ht => h'.since t (h.since t ht),
    fun o ho => h'.outcome o (h.outcome o ho)⟩

theorem precedes_apply (e : Entry) (now : Nat) (c : Change) : e.Precedes (e.apply now c) := by
  cases c with
  | message text => exact ⟨Nat.le_refl _, fun _ h => h, fun _ h => h⟩
  | details text lead => exact ⟨Nat.le_refl _, fun _ h => h, fun _ h => h⟩
  | start =>
    cases hs : e.stage <;>
      constructor <;> simp [apply, hs, Stage.start, Stage.phase, Stage.since?, Stage.outcome?,
        Phase.rank]
  | finish outcome =>
    cases hs : e.stage <;>
      constructor <;> simp [apply, hs, Stage.finish, Stage.phase, Stage.since?, Stage.outcome?,
        Phase.rank]

theorem isStarted_of_isDone {e : Entry} (h : e.isDone = true) : e.isStarted = true := by
  cases hs : e.stage <;> simp_all [isDone, isStarted, Stage.since?, Stage.outcome?]

theorem isDone_apply_finish (e : Entry) (now : Nat) (outcome : Outcome) :
    (e.apply now (.finish outcome)).isDone = true := by
  cases hs : e.stage <;> simp [isDone, apply, hs, Stage.finish, Stage.outcome?]

theorem Precedes.isDone {e e' : Entry} (h : e.Precedes e') (hd : e.isDone = true) :
    e'.isDone = true := by
  obtain ⟨o, ho⟩ := Option.isSome_iff_exists.mp hd
  exact Option.isSome_iff_exists.mpr ⟨o, h.outcome o ho⟩

theorem Precedes.isStarted {e e' : Entry} (h : e.Precedes e') (hs : e.isStarted = true) :
    e'.isStarted = true := by
  obtain ⟨t, ht⟩ := Option.isSome_iff_exists.mp hs
  exact Option.isSome_iff_exists.mpr ⟨t, h.since t ht⟩

/-- Every entry of the first list is, at the same place of the second, what it was or what has become
of it. -/
def AllPrecede (es es' : List Entry) : Prop :=
  ∀ (i : Nat) (e : Entry), es[i]? = some e → ∃ e', es'[i]? = some e' ∧ e.Precedes e'

theorem AllPrecede.refl (es : List Entry) : AllPrecede es es :=
  fun _ e h => ⟨e, h, .refl e⟩

theorem AllPrecede.trans {es₁ es₂ es₃ : List Entry} (h : AllPrecede es₁ es₂)
    (h' : AllPrecede es₂ es₃) : AllPrecede es₁ es₃ := by
  intro i e he
  obtain ⟨e₂, he₂, hp⟩ := h i e he
  obtain ⟨e₃, he₃, hp'⟩ := h' i e₂ he₂
  exact ⟨e₃, he₃, hp.trans hp'⟩

theorem allPrecede_append (es new : List Entry) : AllPrecede es (es ++ new) := by
  intro i e he
  obtain ⟨hi, _⟩ := List.getElem?_eq_some_iff.mp he
  exact ⟨e, by rw [List.getElem?_append_left hi, he], .refl e⟩

theorem allPrecede_modify (es : List Entry) (i now : Nat) (c : Change) :
    AllPrecede es (es.modify i fun e => e.apply now c) := by
  intro j e he
  by_cases hj : i = j
  · exact ⟨e.apply now c, by simp [hj, he], precedes_apply e now c⟩
  · exact ⟨e, by simp [hj, he], .refl e⟩

theorem AllPrecede.getD {es es' : List Entry} (h : AllPrecede es es') (i : Nat) :
    ¬ i < es.length ∨ (es.getD i default).Precedes (es'.getD i default) := by
  by_cases hi : i < es.length
  · obtain ⟨e', he', hp⟩ := h i _ (List.getElem?_eq_getElem hi)
    right
    simpa [List.getD, List.getElem?_eq_getElem hi, he'] using hp
  · exact .inl hi

theorem AllPrecede.isDone {es es' : List Entry} (h : AllPrecede es es') {i : Nat}
    (hd : (es.getD i default).isDone = true) : (es'.getD i default).isDone = true := by
  rcases h.getD i with hi | hp
  · rw [List.getD_eq_default _ _ (by omega)] at hd
    exact absurd hd (by decide)
  · exact hp.isDone hd

theorem AllPrecede.isStarted {es es' : List Entry} (h : AllPrecede es es') {i : Nat}
    (hs : (es.getD i default).isStarted = true) : (es'.getD i default).isStarted = true := by
  rcases h.getD i with hi | hp
  · rw [List.getD_eq_default _ _ (by omega)] at hs
    exact absurd hs (by decide)
  · exact hp.isStarted hs

end Entry

end Muster.Progress
