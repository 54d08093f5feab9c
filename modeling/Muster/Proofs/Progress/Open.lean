import Mathlib.Data.List.Nodup
import Mathlib.Data.List.Perm.Subperm
import Muster.Proofs.Progress.Lists

/-! The entries that a log has not moved to those that are done, whether or not everything can be
written. Main statement: the lines below those that stay are lines of such entries, one each. -/

namespace Muster.Progress.Log

def opened (log : Log) : List Nat := log.pending ++ log.inProgress

theorem lists_renderTo_perm {ω : Type} (w : Writer ω) (c : Config) (columns now : Nat)
    (entries : List Entry) (log : Log) (out : ω) :
    (log.renderTo w c columns now entries out).1.lists.Perm
      (log.lists ++ log.torn w c columns now entries out) := by
  rcases renderTo_cases w c columns now entries log out with
    ⟨-, hlog, -⟩ | ⟨htorn, ⟨hlog, -⟩ | ⟨-, hlog⟩⟩
  · rw [hlog, lists, lists, List.append_assoc, List.append_assoc, List.append_assoc]
  · rw [hlog, htorn, List.append_nil]
    exact lists_moved_perm entries log
  · rw [hlog, htorn, List.append_nil]
    exact lists_moved_perm entries log

theorem mem_lists_render {c : Config} {columns now : Nat} {entries : List Entry} {log : Log}
    {sink : Sink} {i : Nat} (h : i ∈ log.lists) :
    i ∈ (log.render c columns now entries sink).1.lists :=
  (lists_renderTo_perm Sink.writer c columns now entries log sink).symm.subset
    (List.mem_append_left _ h)

theorem opened_moved_subperm (entries : List Entry) (log : Log) :
    (log.moved entries).opened.Subperm log.opened := by
  rw [List.subperm_iff_count]
  intro i
  have hpending := (List.filter_append_perm (fun i => (entries.getD i default).isStarted)
    log.pending).count_eq i
  have hinProgress := (List.filter_append_perm (fun i => (entries.getD i default).isDone)
    log.inProgress).count_eq i
  simp only [List.count_append] at hpending hinProgress
  simp only [opened, moved_pending, moved_inProgress, List.count_append]
  omega

theorem opened_render_subperm (c : Config) (columns now : Nat) (entries : List Entry) (log : Log)
    (sink : Sink) : (log.render c columns now entries sink).1.opened.Subperm log.opened := by
  rw [render]
  rcases renderTo_cases Sink.writer c columns now entries log sink with
    ⟨-, hlog, -⟩ | ⟨-, ⟨hlog, -⟩ | ⟨-, hlog⟩⟩
  · rw [hlog]
    exact List.Subperm.refl _
  · rw [hlog]
    exact opened_moved_subperm entries log
  · rw [hlog]
    exact opened_moved_subperm entries log

theorem nodup_of_subperm {ids ids' : List Nat} (h : ids'.Nodup) (hsub : ids.Subperm ids') :
    ids.Nodup := by
  obtain ⟨ids₁, hperm, hids⟩ := hsub
  exact hperm.nodup_iff.mp (h.sublist hids)

theorem shown_subperm (c : Config) (entries : List Entry) (log : Log) :
    (log.shown c entries).Subperm log.opened := by
  have hinProgress : ((log.inProgress.filter fun i => !(entries.getD i default).isDone)).Sublist
      log.inProgress := List.filter_sublist
  have hpending : (if c.showPending then log.pending else []).Sublist log.pending := by
    split
    · exact List.Sublist.refl _
    · exact List.nil_sublist _
  exact (hinProgress.append hpending).subperm.trans List.perm_append_comm.subperm

/-- The lines shown are those of open entries that have not ended, one for each. -/
theorem shown_moved (c : Config) {entries : List Entry} {log : Log} (h : log.opened.Nodup) :
    ((log.moved entries).shown c entries).Nodup ∧
      ∀ i ∈ (log.moved entries).shown c entries,
        i ∈ log.opened ∧ (entries.getD i default).isDone = false := by
  have hsub := (shown_subperm c entries (log.moved entries)).trans
    (opened_moved_subperm entries log)
  refine ⟨nodup_of_subperm h hsub, fun i hi => ⟨hsub.subset hi, ?_⟩⟩
  rcases List.mem_append.mp hi with hi | hi
  · simpa only [Bool.not_eq_true'] using (List.mem_filter.mp hi).2
  · split at hi
    · have hstarted : (entries.getD i default).isStarted = false := by
        simpa only [Bool.not_eq_true'] using (List.mem_filter.mp hi).2
      cases hdone : (entries.getD i default).isDone with
      | false => rfl
      | true =>
        rw [Entry.isStarted_of_isDone hdone] at hstarted
        exact absurd hstarted (by decide)
    · simp at hi

theorem height_render (c : Config) (columns now : Nat) (entries : List Entry) (log : Log)
    (sink : Sink) :
    let log' := (log.render c columns now entries sink).1
    log'.height = log.height ∨ log'.height = ((log.moved entries).shown c entries).length := by
  rw [render]
  rcases renderTo_cases Sink.writer c columns now entries log sink with
    ⟨-, hlog, -⟩ | ⟨-, ⟨hlog, -⟩ | ⟨-, hlog⟩⟩
  · exact .inl (by rw [hlog])
  · exact .inl (by rw [hlog]; rfl)
  · exact .inr (by rw [hlog])

end Muster.Progress.Log
