import Mathlib.Data.List.Nodup
import Muster.Proofs.Progress.Board

/-! The way of an entry through the lists of a log, one list at a time, and the one time at which its
last lines are written. -/

namespace Muster.Progress

namespace Log

def lists (log : Log) : List Nat := log.pending ++ log.inProgress ++ log.done

theorem lists_moved_perm (entries : List Entry) (log : Log) :
    (log.moved entries).lists.Perm log.lists := by
  rw [List.perm_iff_count]
  intro i
  have hp := (List.filter_append_perm (fun i => (entries.getD i default).isStarted)
    log.pending).count_eq i
  have hi := (List.filter_append_perm (fun i => (entries.getD i default).isDone)
    log.inProgress).count_eq i
  simp only [List.count_append] at hp hi
  simp only [lists, moved_pending, moved_inProgress, moved_done, ended, List.count_append]
  omega

theorem lists_add_perm (log : Log) (ids : List Nat) :
    (log.add ids).lists.Perm (log.lists ++ ids) := by
  have hnew : (ids ++ (log.inProgress ++ log.done)).Perm
      (log.inProgress ++ (log.done ++ ids)) :=
    List.perm_append_comm.trans (by simp)
  simp only [lists, add, List.append_assoc]
  exact hnew.append_left _

theorem final?_pieces (c : Config) (columns now : Nat) (entries : List Entry) (log : Log) :
    (log.pieces c columns now entries).filterMap Piece.final? = log.ended entries := by
  have hfinal : ((log.ended entries).map fun i => Piece.final i ((entries.getD i default).finalLines
      c.palette (c.lineWidth columns) now)).filterMap Piece.final? = log.ended entries := by
    simp [List.filterMap_map, Function.comp_def, Piece.final?]
  have hactive (ids : List Nat) : (ids.map fun i => Piece.active i ((entries.getD i default).line
      c.palette (c.lineWidth columns) now)).filterMap Piece.final? = [] := by
    simp [List.filterMap_map, Function.comp_def, Piece.final?]
  cases hc : c.appendOnly with
  | true => simp only [pieces, hc, if_true, hfinal]
  | false =>
    simp only [pieces, hc, Bool.false_eq_true, if_false, List.filterMap_cons, Piece.final?,
      List.filterMap_append, hfinal, hactive, List.append_nil]

end Log

namespace Board

def added (steps : List (Nat × Step)) : List Nat :=
  steps.flatMap fun s =>
    match s.2 with
    | .add ids => ids
    | _ => []

/-- Entries that are added are there, each once, and have not been added before. -/
def Fresh (_ : Nat) (s : Step) (b : Board) : Prop :=
  match s with
  | .add ids => ids.Nodup ∧ ∀ i ∈ ids, i < b.entries.length ∧ i ∉ b.log.lists
  | _ => True

/-- Every entry that was added is in one list, and no list is ahead of its entries. -/
structure Sorted (b : Board) (added : List Nat) : Prop where
  perm : b.log.lists.Perm added
  nodup : added.Nodup
  started : ∀ i ∈ b.log.inProgress, (b.entries.getD i default).isStarted = true
  ended : ∀ i ∈ b.log.done, (b.entries.getD i default).isDone = true

theorem sorted_take {c : Config} {now : Nat} {s : Step} {b b' : Board} {ids : List Nat}
    (hb : b.Sorted ids) (hs : Fresh now s b) (h : b.take c now s = some b') :
    b'.Sorted (ids ++ added [(now, s)]) := by
  have hlater := entries_take h
  cases s with
  | create message =>
    cases h
    exact ⟨by simpa [added] using hb.perm, by simpa [added] using hb.nodup,
      fun i hi => hlater.isStarted (hb.started i hi), fun i hi => hlater.isDone (hb.ended i hi)⟩
  | change entry change =>
    cases h
    exact ⟨by simpa [added] using hb.perm, by simpa [added] using hb.nodup,
      fun i hi => hlater.isStarted (hb.started i hi), fun i hi => hlater.isDone (hb.ended i hi)⟩
  | add new =>
    cases h
    have hperm : (b.log.add new).lists.Perm (ids ++ new) :=
      (Log.lists_add_perm b.log new).trans (hb.perm.append_right new)
    refine ⟨by simpa [added] using hperm, ?_, hb.started, hb.ended⟩
    simp only [added, List.flatMap_cons, List.flatMap_nil, List.append_nil]
    refine List.nodup_append.mpr ⟨hb.nodup, hs.1, ?_⟩
    rintro i hi _ hj rfl
    exact (hs.2 i hj).2 (hb.perm.mem_iff.mpr hi)
  | render columns =>
    obtain ⟨he, hlog, _⟩ := take_render h
    have hlists : b'.log.lists = (b.log.moved b.entries).lists := by
      rw [hlog]
      split <;> rfl
    have hinProgress : b'.log.inProgress = (b.log.moved b.entries).inProgress := by
      rw [hlog]
      split <;> rfl
    have hdone : b'.log.done = (b.log.moved b.entries).done := by
      rw [hlog]
      split <;> rfl
    refine ⟨?_, by simpa [added] using hb.nodup, ?_, ?_⟩
    · simpa [added, hlists] using (Log.lists_moved_perm _ _).trans hb.perm
    · intro i hi
      rw [hinProgress, Log.moved_inProgress, List.mem_append, List.mem_filter,
        List.mem_filter] at hi
      rw [he]
      rcases hi with ⟨hi, _⟩ | ⟨_, hi⟩
      · exact hb.started i hi
      · exact hi
    · intro i hi
      rw [hdone, Log.moved_done, Log.ended, List.mem_append, List.mem_filter] at hi
      rw [he]
      rcases hi with hi | ⟨_, hi⟩
      · exact hb.ended i hi
      · exact hi

theorem sorted_run {c : Config} {start : Board} {steps : List (Nat × Step)} {b : Board}
    (hstart : start.log = {}) (h : run c steps start = some b) (ha : Along c Fresh steps start) :
    b.Sorted (added steps) := by
  refine run_induction (fun steps b => b.Sorted (added steps)) ?_ ?_ h ha
  · exact ⟨by rw [hstart]; exact .refl _, List.nodup_nil, by simp [hstart], by simp [hstart]⟩
  · intro done now s b b' hb hs h
    simpa [added] using sorted_take hb hs h

end Board

end Muster.Progress
