import Mathlib.Data.List.Nodup
import Muster.Proofs.Dispatch.Arguments
import Muster.Proofs.Dispatch.Task

/-! The results of a command, however its tasks are ordered. Main statement: there is one for each
argument, first those that tasks gave, as they ended, then those of tasks that crashed; and the action of
each argument that stands for something has run once, from its start to its end or to where it crashed. -/

namespace Muster

variable {σ : Type}

namespace Dispatch

def sentJobs (results : List (Nat × Option Outcome)) : List Nat :=
  results.filterMap fun r => r.2.map fun _ => r.1

variable {args : List Resolved} {results : List (Nat × Option Outcome)}

theorem jobs_sent (args : List Resolved) (results : List (Nat × Option Outcome)) :
    (sent args results).map (·.job) = sentJobs results := by
  simp only [sent, sentJobs, List.map_filterMap, Option.map_map]
  rfl

theorem mem_sent {r : TaskResult} (h : r ∈ sent args results) :
    (r.job, some r.outcome) ∈ results ∧ r.argument = args.getD r.job default := by
  obtain ⟨⟨job, outcome?⟩, hmem, hr⟩ := List.mem_filterMap.mp h
  obtain ⟨outcome, rfl, rfl⟩ := Option.map_eq_some_iff.mp hr
  exact ⟨hmem, rfl⟩

theorem mem_sentJobs {job : Nat} :
    job ∈ sentJobs results ↔ ∃ outcome, (job, some outcome) ∈ results := by
  simp only [sentJobs, List.mem_filterMap, Option.map_eq_some_iff, Prod.exists]
  constructor
  · rintro ⟨_, _, hmem, outcome, rfl, rfl⟩
    exact ⟨outcome, hmem⟩
  · rintro ⟨outcome, hmem⟩
    exact ⟨job, some outcome, hmem, outcome, rfl, rfl⟩

theorem nodup_sentJobs (h : (results.map Prod.fst).Nodup) : (sentJobs results).Nodup := by
  have hfilter : sentJobs results = (results.filter fun r => r.2.isSome).map Prod.fst := by
    rw [← List.filterMap_eq_map, List.filterMap_filter]
    refine List.filterMap_congr fun r _ => ?_
    cases hr : r.2 <;> simp
  rw [hfilter]
  exact h.sublist (List.filter_sublist.map Prod.fst)

theorem any_sent (job : Nat) :
    (sent args results).any (·.job == job) = decide (job ∈ sentJobs results) := by
  rw [← jobs_sent args results, Bool.eq_iff_iff]
  simp

theorem jobs_missing (args : List Resolved) (results : List (Nat × Option Outcome)) :
    (missing args (sent args results)).map (·.job) =
      (List.range args.length).filter fun job => !decide (job ∈ sentJobs results) := by
  simp only [missing, List.map_map, any_sent]
  exact List.map_id _

theorem perm_sentJobs (hnodup : (sentJobs results).Nodup)
    (hlt : ∀ job ∈ sentJobs results, job < args.length) :
    (sentJobs results).Perm
      ((List.range args.length).filter fun job => decide (job ∈ sentJobs results)) := by
  refine (List.perm_ext_iff_of_nodup hnodup (List.nodup_range.filter _)).mpr fun job => ?_
  simp only [List.mem_filter, List.mem_range, decide_eq_true_eq]
  exact ⟨fun h => ⟨hlt job h, h⟩, fun h => h.2⟩

/-- There are no more results than tasks, and none is missing when there are as many. -/
theorem gather_eq (hnodup : (sentJobs results).Nodup)
    (hlt : ∀ job ∈ sentJobs results, job < args.length) :
    gather args results = sent args results ++ missing args (sent args results) := by
  have hlength : (sent args results).length = (sentJobs results).length := by
    rw [← jobs_sent args results, List.length_map]
  have hperm := perm_sentJobs hnodup hlt
  have hle : (sent args results).length ≤ args.length := by
    have := List.length_filter_le (fun job => decide (job ∈ sentJobs results))
      (List.range args.length)
    rw [hlength, hperm.length_eq]
    simpa using this
  simp only [gather, List.take_of_length_le hle]
  split
  · rfl
  -- as many results as tasks, so that the filter of `perm_sentJobs` keeps every job
  · have hall := List.length_filter_eq_length_iff.mp
      ((hperm.length_eq.symm.trans (hlength.symm.trans (by omega))).trans
        List.length_range.symm)
    have hnone : missing args (sent args results) = [] := by
      simp only [missing, any_sent, List.map_eq_nil_iff, List.filter_eq_nil_iff]
      intro job hjob
      simp [of_decide_eq_true (hall job hjob)]
    rw [hnone, List.append_nil]

theorem perm_jobs (hnodup : (sentJobs results).Nodup)
    (hlt : ∀ job ∈ sentJobs results, job < args.length) :
    ((gather args results).map (·.job)).Perm (List.range args.length) := by
  rw [gather_eq hnodup hlt, List.map_append, jobs_sent, jobs_missing]
  exact ((perm_sentJobs hnodup hlt).append_right _).trans (List.filter_append_perm _ _)

section Finished

variable {b : Backend σ} {c : Command} {known : c.mode.Known} {w : World σ} {display : Display}
  {q : Queue σ Outcome}

theorem ended_of_returned
    (h : Running.Reachable b (.start c.limit (args.map (task c known)) w display) ⟨.returned, q⟩) :
    (∀ job < args.length, ∃ outcome? : Option Outcome, q.slots[job]? = some (.ended outcome?) ∧
      (job, outcome?) ∈ q.results) ∧
    ∀ job ∈ sentJobs q.results, job < args.length := by
  have htold : q.Told (args.map (task c known)) w := Queue.Told.of_reachable h
  have hsound : q.Sound c.limit (args.map (task c known)) w := Running.sound_of_reachable h
  have hplaced := Running.placed_of_reachable h
  obtain ⟨hlength, hended, -⟩ := Running.ended_of_taken hsound hplaced.2 hplaced.1
  rw [List.length_map] at hlength
  constructor
  · intro job hjob
    have hslot := List.getElem?_eq_getElem (hlength ▸ hjob)
    obtain ⟨outcome?, hs⟩ := Slot.ended_of_isActive (hended _ (List.mem_of_getElem? hslot))
    rw [hs] at hslot
    exact ⟨outcome?, hslot, (htold.results job outcome?).mpr hslot⟩
  · intro job hjob
    obtain ⟨outcome, hmem⟩ := mem_sentJobs.mp hjob
    have hslot := (htold.results job (some outcome)).mp hmem
    exact hlength ▸ (List.getElem?_eq_some_iff.mp hslot).1

theorem follows_of_returned {notes : List (Nat × Note)}
    (h : Running.Runs b (.start c.limit (args.map (task c known)) w display) notes ⟨.returned, q⟩)
    {job : Nat} {arg : Resolved} (harg : args[job]? = some arg) :
    ∃ outcome? : Option Outcome, q.slots[job]? = some (.ended outcome?) ∧
      (Slot.ended outcome? : Slot σ Outcome).Follows (task c known arg) (own job notes) := by
  have hnoted : q.Noted (args.map (task c known)) w notes := .of_runs h
  have hjob := (List.getElem?_eq_some_iff.mp harg).1
  obtain ⟨outcome?, hslot, -⟩ := (ended_of_returned h.reachable).1 job hjob
  exact ⟨outcome?, hslot, hnoted.follows job _ _ hslot (by simp [harg])⟩

/-- Each task whose argument stands for something has run its action, and came to what that did. -/
theorem ran_of_returned {notes : List (Nat × Note)}
    (h : Running.Runs b (.start c.limit (args.map (task c known)) w display) notes ⟨.returned, q⟩)
    {job : Nat} {arg : Resolved} (harg : args[job]? = some arg) (herror : arg.error? = none) :
    ∃ made outcome?, Ran c known arg (own job notes) made outcome? ∧
      q.slots[job]? = some
        (.ended (outcome?.map fun outcome => outcome.mapError CommandError.markHandled)) := by
  obtain ⟨o?, hslot, hfollows⟩ := follows_of_returned h harg
  obtain ⟨made, outcome?, hran, rfl⟩ := ran_of_comes herror hfollows.comes
  exact ⟨made, outcome?, hran, hslot⟩

theorem invocations_of_returned
    (h : Running.Reachable b (.start c.limit (args.map (task c known)) w display) ⟨.returned, q⟩)
    {job : Nat} {arg : Resolved} (harg : args[job]? = some arg) :
    let made := invocations (w.entries.length + job) (q.world.since w)
    match arg.error? with
    | some _ => made = []
    | none => ∃ rest p, made = arg.value :: rest ∧ (c.action known arg.value).Path rest p := by
  intro made
  have htold : q.Told (args.map (task c known)) w := Queue.Told.of_reachable h
  have hjob := (List.getElem?_eq_some_iff.mp harg).1
  obtain ⟨outcome?, hslot, -⟩ := (ended_of_returned h).1 job hjob
  have hon := htold.path job _ (task c known arg) hslot (by simp [harg])
  obtain ⟨p, hpath, hhalts⟩ := Slot.halts_of_ended hon
  split
  · rename_i herror
    exact path_of_unresolved herror hpath
  · rename_i herror
    exact path_of_resolved herror hpath hhalts

theorem perm_of_returned
    (h : Running.Reachable b (.start c.limit (args.map (task c known)) w display) ⟨.returned, q⟩) :
    ((gather args q.results).map (·.job)).Perm (List.range args.length) := by
  have htold : q.Told (args.map (task c known)) w := Queue.Told.of_reachable h
  exact perm_jobs (nodup_sentJobs htold.nodup) (ended_of_returned h).2

theorem argument_of_gathered
    (h : Running.Reachable b (.start c.limit (args.map (task c known)) w display) ⟨.returned, q⟩)
    {r : TaskResult} (hr : r ∈ gather args q.results) : args[r.job]? = some r.argument := by
  have htold : q.Told (args.map (task c known)) w := Queue.Told.of_reachable h
  have hlt := (ended_of_returned h).2
  have hnodup := nodup_sentJobs htold.nodup
  have hjob : r.job < args.length := by
    have hmem := (perm_of_returned h).mem_iff.mp (List.mem_map.mpr ⟨r, hr, rfl⟩)
    exact List.mem_range.mp hmem
  have hget : r.argument = args.getD r.job default := by
    rw [gather_eq hnodup hlt] at hr
    rcases List.mem_append.mp hr with hr | hr
    · exact (mem_sent hr).2
    · obtain ⟨job, -, rfl⟩ := List.mem_map.mp hr
      rfl
  rw [hget, List.getD_eq_getElem _ _ hjob, List.getElem?_eq_getElem hjob]

theorem slot_of_missing
    (h : Running.Reachable b (.start c.limit (args.map (task c known)) w display) ⟨.returned, q⟩)
    {r : TaskResult} (hr : r ∈ missing args (sent args q.results)) :
    q.slots[r.job]? = some (.ended none) := by
  have hmissing := List.mem_map_of_mem (f := TaskResult.job) hr
  rw [jobs_missing, List.mem_filter, List.mem_range] at hmissing
  obtain ⟨outcome?, hslot, hmem⟩ := (ended_of_returned h).1 _ hmissing.1
  cases outcome? with
  | some outcome =>
    have hsent := mem_sentJobs.mpr ⟨outcome, hmem⟩
    simp [hsent] at hmissing
  | none => exact hslot

/-- A result is the one of its task, or tells that the task crashed. -/
theorem slot_of_gathered
    (h : Running.Reachable b (.start c.limit (args.map (task c known)) w display) ⟨.returned, q⟩)
    {r : TaskResult} (hr : r ∈ gather args q.results) :
    q.slots[r.job]? = some (.ended (some r.outcome)) ∨
      (q.slots[r.job]? = some (.ended none) ∧ r.outcome = .error lost) := by
  have htold : q.Told (args.map (task c known)) w := Queue.Told.of_reachable h
  have hlt := (ended_of_returned h).2
  have hnodup := nodup_sentJobs htold.nodup
  rw [gather_eq hnodup hlt] at hr
  rcases List.mem_append.mp hr with hr | hr
  · exact .inl ((htold.results _ _).mp (mem_sent hr).1)
  · have hslot := slot_of_missing h hr
    obtain ⟨job, -, rfl⟩ := List.mem_map.mp hr
    exact .inr ⟨hslot, rfl⟩

/-- Each result is from a task that kept to its program to the end, or crashed on the way. -/
theorem came_of_gathered {notes : List (Nat × Note)}
    (h : Running.Runs b (.start c.limit (args.map (task c known)) w display) notes ⟨.returned, q⟩)
    {r : TaskResult} (hr : r ∈ gather args q.results) :
    ∃ outcome? : Option Outcome, q.slots[r.job]? = some (.ended outcome?) ∧
      (Slot.ended outcome? : Slot σ Outcome).Follows (task c known r.argument) (own r.job notes) ∧
      r.outcome = outcome?.getD (.error lost) := by
  obtain ⟨outcome?, hslot, hfollows⟩ := follows_of_returned h (argument_of_gathered h.reachable hr)
  refine ⟨outcome?, hslot, hfollows, ?_⟩
  rcases slot_of_gathered h.reachable hr with hslot' | ⟨hslot', hlost⟩
  · obtain rfl : outcome? = some r.outcome := by simpa [hslot] using hslot'
    rfl
  · obtain rfl : outcome? = none := by simpa [hslot] using hslot'
    exact hlost

/-- A command whose arguments were looked up comes to an end. -/
theorem run_of_resolved {raw : List String} {world : World σ} {found : List Resolved}
    (hresolve : runAlone b none (resolve raw c.mode) world = (some (.ok (known, found)), w)) :
    ∃ q, Running.Reachable b (.start c.limit ((orEmpty found).map (task c known)) w display)
        ⟨.returned, q⟩ ∧
      run b c raw world display = .finished (gather (orEmpty found) q.results) q := by
  refine ⟨_, Queue.run_reachable b c.limit _ w display, ?_⟩
  simp only [run, hresolve]

theorem run_of_found {raw : List String} {world : World σ} {found : List Resolved}
    (hresolve : runAlone b none (resolve raw c.mode) world = (some (.ok (known, found)), w))
    (hfound : found ≠ []) :
    ∃ q, Running.Reachable b (.start c.limit (found.map (task c known)) w display)
        ⟨.returned, q⟩ ∧
      run b c raw world display = .finished (gather found q.results) q := by
  rw [← orEmpty_of_ne_nil hfound]
  exact run_of_resolved hresolve

end Finished

end Dispatch

end Muster
