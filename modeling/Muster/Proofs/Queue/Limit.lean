import Muster.Proofs.Program.Course

/-! Whatever the order in which a queue runs, it takes each task once and in order, never more of them at
once than its limit, and as many as that while there are some; each task keeps to its program, and the queue
returns when all of them have ended, with a count of those whose programs crashed. -/

namespace Muster.Running

open Queue

variable {σ α : Type} {b : Backend σ} {m : Nat} {ps : List (Program α)} {w₀ : World σ}
  {display : Display}

/-- The run of a queue is one of all that there may be. In each, every task has been handed out at most
once, in order and with a new entry that its log has, and does what its program does next; while the
scheduler waits, as many tasks as possible have been taken; and the scheduler returns once all of them have
ended. Those counted as panicked are then the ones whose programs crashed. -/
theorem tasks_run_once_within_limit (hlog : display.log = {}) :
    Reachable b (start m ps w₀ display) ⟨.returned, run b m ps w₀ display⟩ ∧
    ∀ (notes : List (Nat × Note)) (r : Running σ α), Runs b (start m ps w₀ display) notes r →
      let q := r.queue
      let started := q.slots.length
      started ≤ ps.length ∧
      handed (q.world.since w₀) =
        (List.range started).map (fun i => (i, w₀.entries.length + i)) ∧
      q.world.entries.length = w₀.entries.length + started ∧
      (∀ i < started, w₀.entries.length + i ∈ q.display.log.lists) ∧
      (∀ (i : Nat) (s : Slot σ α) (p : Program α), q.slots[i]? = some s → ps[i]? = some p →
        s.Follows p (own i notes)) ∧
      q.taken + q.stats.joined = started ∧
      (r.position = .waiting → q.taken = min (max 1 m) (ps.length - q.stats.joined)) ∧
      q.active ≤ q.taken ∧ q.taken ≤ max 1 m ∧
      q.display.log.height ≤ max 1 m ∧
      (r.position = .returned → started = ps.length ∧ (∀ s ∈ q.slots, s.isActive = false) ∧
        q.stats.completed + q.stats.panicked = ps.length ∧
        q.stats.panicked = q.slots.countP Slot.isCrashed) := by
  refine ⟨run_reachable b m ps w₀ display, fun notes r h => ?_⟩
  have hplaced := placed_of_reachable h.reachable
  have hsound : r.queue.Sound m ps w₀ := sound_of_reachable h.reachable
  have hlisted : r.queue.Listed m w₀ := listed_of_reachable hlog h.reachable
  have hnoted : r.queue.Noted ps w₀ notes := .of_runs h
  obtain ⟨position, q⟩ := r
  refine ⟨hsound.started, hsound.calls, hsound.entries, hlisted.registered, hnoted.follows,
    hsound.joined, ?_, Nat.le_add_right _ _, hsound.bound, hlisted.height, ?_⟩
  · rintro rfl
    exact taken_of_full hsound hplaced.1
  · rintro rfl
    exact ended_of_taken hsound hplaced.2 hplaced.1

/-- One task ends, another crashes, and there is room for one at a time. -/
theorem tasks_run_once_within_limit_two :
    let b : Backend Unit := ⟨fun _ _ s => ⟨0, s, fun _ s => (.crash, s)⟩⟩
    let q := run b 0 [.done 7, .crash] { state := () } {}
    ({} : Display).log = {} ∧ q.stats.completed = 1 ∧ q.stats.panicked = 1 ∧
      handed q.world.events = [(0, 0), (1, 1)] ∧ q.display.log.height ≤ 1 := by
  intro b q
  have h := @tasks_run_once_within_limit Unit Nat b 0 [.done 7, .crash] { state := () } {} rfl
  obtain ⟨notes, hruns⟩ := Runs.of_reachable h.1
  obtain ⟨-, hcalls, -, -, hfollows, -, -, -, -, hheight, hreturned⟩ := h.2 notes _ hruns
  obtain ⟨hstarted, hinactive, hjoined, hpanicked⟩ := hreturned rfl
  rw [hstarted] at hcalls
  obtain ⟨s, s', hslots⟩ := List.length_eq_two.mp hstarted
  obtain ⟨a?, rfl⟩ := Slot.ended_of_isActive (hinactive s (hslots ▸ List.mem_cons_self))
  obtain ⟨a'?, rfl⟩ :=
    Slot.ended_of_isActive (hinactive s' (hslots ▸ List.mem_cons_of_mem _ List.mem_cons_self))
  obtain ⟨-, rfl⟩ := (hfollows 0 (.ended a?) _ (by rw [hslots]; rfl) rfl).comes.of_done
  obtain ⟨-, rfl⟩ := (hfollows 1 (.ended a'?) _ (by rw [hslots]; rfl) rfl).comes.of_crash
  have hone : q.stats.panicked = 1 := by
    rw [hpanicked, hslots]
    rfl
  have htwo : q.stats.completed + q.stats.panicked = 2 := hjoined
  exact ⟨rfl, by omega, hone, hcalls, hheight⟩

end Muster.Running
