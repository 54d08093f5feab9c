import Muster.Proofs.Progress.Open

/-! Logs whose entries have all ended, with room for all that is written. Main statements: a rendering
cannot fail then, and leaves no entry that waits and no line below those that stay; and the last lines of
an entry show the outcome that it keeps. -/

namespace Muster.Progress

def Change.outcome? : Change → Option Outcome
  | .finish outcome => some outcome
  | _ => none

theorem Entry.outcome?_apply (e : Entry) (now : Nat) (c : Change) :
    (e.apply now c).stage.outcome? = e.stage.outcome?.or c.outcome? := by
  cases c with
  | message text => exact Option.or_none.symm
  | details text lead => exact Option.or_none.symm
  | start => cases hs : e.stage <;> simp [apply, hs, Stage.start, Stage.outcome?, Change.outcome?]
  | finish outcome =>
    cases hs : e.stage <;> simp [apply, hs, Stage.finish, Stage.outcome?, Change.outcome?]

namespace Log

/-- Lines are shown below those that stay only for entries that have not ended. -/
theorem shown_moved_of_ended (c : Config) {entries : List Entry} {log : Log}
    (h : ∀ i ∈ log.opened, (entries.getD i default).isDone = true) :
    (log.moved entries).pending = [] ∧ (log.moved entries).inProgress = log.pending ∧
      (log.moved entries).shown c entries = [] := by
  have hpending : ∀ i ∈ log.pending, (entries.getD i default).isDone = true := fun i hi =>
    h i (List.mem_append_left _ hi)
  have hinProgress : ∀ i ∈ log.inProgress, (entries.getD i default).isDone = true := fun i hi =>
    h i (List.mem_append_right _ hi)
  have hnone : (log.moved entries).pending = [] := by
    refine List.filter_eq_nil_iff.mpr fun i hi => ?_
    rw [Entry.isStarted_of_isDone (hpending i hi)]
    decide
  have hall : (log.moved entries).inProgress = log.pending := by
    rw [moved_inProgress, List.filter_eq_nil_iff.mpr fun i hi => by rw [hinProgress i hi]; decide,
      List.nil_append]
    exact List.filter_eq_self.mpr fun i hi => Entry.isStarted_of_isDone (hpending i hi)
  refine ⟨hnone, hall, ?_⟩
  rw [shown, hall, hnone, ite_self, List.append_nil]
  refine List.filter_eq_nil_iff.mpr fun i hi => ?_
  rw [hpending i hi]
  decide

end Log

namespace Board

variable {c : Config} {now : Nat} {b b' : Board}

theorem take_render_of_ended {columns : Nat} (h : b.take c now (.render columns) = some b')
    (hended : ∀ i ∈ b.log.opened, (b.entries.getD i default).isDone = true) :
    b'.log.pending = [] ∧ b'.log.inProgress = b.log.pending ∧
      b'.log.height = if c.appendOnly then b.log.height else 0 := by
  obtain ⟨hpending, hinProgress, hshown⟩ := Log.shown_moved_of_ended c hended
  rw [(take_render h).2.1]
  by_cases hc : c.appendOnly = true
  · simp only [if_pos hc]
    exact ⟨hpending, hinProgress, rfl⟩
  · simp only [if_neg hc, hshown]
    exact ⟨hpending, hinProgress, rfl⟩

/-- An append-only log never has lines below those that stay. -/
theorem height_run (hc : c.appendOnly = true) {steps : List (Nat × Step)}
    (h : run c steps b = some b') : b'.log.height = b.log.height := by
  induction steps generalizing b with
  | nil =>
    cases h
    rfl
  | cons s steps ih =>
    obtain ⟨now, s⟩ := s
    obtain ⟨b₁, h₁, h⟩ := Option.bind_eq_some_iff.mp h
    have hstep : b₁.log.height = b.log.height := by
      cases s with
      | render columns =>
        rw [(take_render h₁).2.1, if_pos hc]
        rfl
      | _ =>
        cases h₁
        rfl
    rw [ih h, hstep]

theorem final_pieces {columns : Nat} {i : Nat} {text : String}
    (h : Piece.final i text ∈ b.log.pieces c columns now b.entries) :
    (b.entries.getD i default).isDone = true ∧
      text = (b.entries.getD i default).finalLines c.palette (c.lineWidth columns) now := by
  have hfinal : Piece.final i text ∈ (b.log.ended b.entries).map fun i =>
      Piece.final i ((b.entries.getD i default).finalLines c.palette (c.lineWidth columns) now) := by
    by_cases hc : c.appendOnly = true
    · simpa only [Log.pieces, if_pos hc] using h
    · simpa [Log.pieces, if_neg hc] using h
  obtain ⟨j, hj, heq⟩ := List.mem_map.mp hfinal
  cases heq
  exact ⟨(List.mem_filter.mp hj).2, rfl⟩

theorem along_concat {P : Nat → Step → Board → Prop} {steps : List (Nat × Step)} {s : Step}
    (ha : Along c P steps b) (h : run c steps b = some b') (hs : P now s b') :
    Along c P (steps ++ [(now, s)]) b := by
  induction steps generalizing b with
  | nil =>
    cases h
    exact ⟨hs, fun _ _ => trivial⟩
  | cons x steps ih =>
    obtain ⟨b₁, h₁, h⟩ := Option.bind_eq_some_iff.mp h
    refine ⟨ha.1, fun b₂ h₂ => ?_⟩
    obtain rfl := Option.some.inj (h₁.symm.trans h₂)
    exact ih (ha.2 b₁ h₁) h

/-- A board comes from another by steps that all succeed, which add the given entries. -/
def Arises (c : Config) (start b : Board) (ids : List Nat) : Prop :=
  ∃ steps, run c steps start = some b ∧ Along c Fresh steps start ∧ added steps = ids

namespace Arises

variable {start : Board} {ids : List Nat}

theorem refl (c : Config) (b : Board) : Arises c b b [] := ⟨[], rfl, trivial, rfl⟩

theorem next {s : Step} (h : Arises c start b ids) (hs : Fresh now s b)
    (ht : b.take c now s = some b') : Arises c start b' (ids ++ added [(now, s)]) := by
  obtain ⟨steps, hrun, hfresh, rfl⟩ := h
  refine ⟨steps ++ [(now, s)], ?_, along_concat hfresh hrun hs, List.flatMap_append⟩
  rw [run_concat, hrun]
  exact ht

theorem perm (h : Arises c start b ids) (hstart : start.log = {}) :
    b.log.lists.Perm ids ∧ ids.Nodup := by
  obtain ⟨steps, hrun, hfresh, rfl⟩ := h
  have hsorted := sorted_run hstart hrun hfresh
  exact ⟨hsorted.perm, hsorted.nodup⟩

theorem height (h : Arises c start b ids) (hc : c.appendOnly = true) :
    b.log.height = start.log.height := by
  obtain ⟨steps, hrun, -, -⟩ := h
  exact height_run hc hrun

end Arises

end Board

end Muster.Progress
