import Muster.Proofs.Queue.Height

/-! Where the scheduler of a queue is, whatever the order in which it runs: while it waits it has taken as many
tasks as it may, and when it returns all of them have ended and been counted. -/

namespace Muster.Running

open Queue

variable {σ α : Type} {b : Backend σ} {m : Nat} {ps : List (Program α)} {w₀ : World σ}
  {display : Display} {r r' : Running σ α}

def Placed (r : Running σ α) : Prop :=
  match r.position with
  | .filling => True
  | .waiting => r.queue.hasRoom = false ∧ r.queue.taken ≠ 0
  | _ => r.queue.hasRoom = false ∧ r.queue.taken = 0

theorem placed_of_same {position : Position} {q q' : Queue σ α} (h : Placed ⟨position, q⟩)
    (hroom : q'.hasRoom = q.hasRoom) (htaken : q'.taken = q.taken) : Placed ⟨position, q'⟩ := by
  simp only [Placed, hroom, htaken]
  exact h

theorem placed_choose {c : Choice} (h : r.Placed) (hc : r.choose b c = some r') : r'.Placed := by
  obtain ⟨position, q⟩ := r
  cases c with
  | proceed =>
    cases position with
    | filling =>
      simp only [choose, proceed] at hc
      split at hc
      · obtain ⟨q', -, rfl⟩ := Option.map_eq_some_iff.mp hc
        trivial
      · rename_i hroom
        have hroom := Bool.eq_false_iff.mpr hroom
        cases hc
        by_cases htaken : q.taken = 0
        · simpa [htaken, Placed] using hroom
        · simpa [htaken, Placed] using hroom
    | waiting => simp [choose, proceed] at hc
    | closing =>
      cases hc
      exact h
    | leaving =>
      cases hc
      unfold renderOpen
      split
      · exact h
      · exact h
    | returned => simp [choose, proceed] at hc
  | join k =>
    simp only [choose] at hc
    split at hc
    · obtain ⟨q', -, rfl⟩ := Option.map_eq_some_iff.mp hc
      trivial
    · simp at hc
  | tick =>
    simp only [choose] at hc
    split at hc
    · cases hc
      trivial
    · simp at hc
  | enter i =>
    simp only [choose] at hc
    split at hc
    · obtain ⟨q', henter, rfl⟩ := Option.map_eq_some_iff.mp hc
      rcases turn_enter henter with rfl | hturn
      · exact h
      · exact placed_of_same h hturn.hasRoom hturn.taken
    · simp at hc
  | act i =>
    obtain ⟨q', hact, rfl⟩ := Option.map_eq_some_iff.mp hc
    have hturn := turn_act hact
    exact placed_of_same h hturn.hasRoom hturn.taken
  | pass time =>
    cases hc
    exact placed_of_same h rfl rfl

theorem placed_of_reachable (h : Reachable b (start m ps w₀ display) r) : r.Placed := by
  induction h with
  | refl => trivial
  | tail _ hstep ih =>
    obtain ⟨c, hc⟩ := hstep
    exact placed_choose ih hc

theorem sound_of_reachable (h : Reachable b (start m ps w₀ display) r) :
    r.queue.Sound m ps w₀ := by
  induction h with
  | refl => exact .start m ps w₀ display
  | tail _ hstep ih =>
    obtain ⟨c, hc⟩ := hstep
    exact ih.move (move_of_choose hc)

theorem listed_of_reachable (hlog : display.log = {})
    (h : Reachable b (start m ps w₀ display) r) : r.queue.Listed m w₀ := by
  induction h with
  | refl => exact .start hlog
  | tail h hstep ih =>
    obtain ⟨c, hc⟩ := hstep
    exact ih.move (sound_of_reachable h) (move_of_choose hc)

/-- A queue without room has taken as many tasks as it may, or all. -/
theorem taken_of_full {q : Queue σ α} (h : q.Sound m ps w₀) (hroom : q.hasRoom = false) :
    q.taken = min (max 1 m) (ps.length - q.stats.joined) := by
  have hbound := h.bound
  have hjoined := h.joined
  have hstarted := h.started
  have hlimit := h.limit
  by_cases hfull : q.taken < max 1 q.limit
  · have htasks : q.tasks = [] := by simpa [hasRoom, hfull] using hroom
    have hall := h.tasks
    rw [htasks] at hall
    have := List.drop_eq_nil_iff.mp hall.symm
    omega
  · omega

theorem ended_of_taken {q : Queue σ α} (h : q.Sound m ps w₀) (htaken : q.taken = 0)
    (hroom : q.hasRoom = false) :
    q.slots.length = ps.length ∧ (∀ s ∈ q.slots, s.isActive = false) ∧
      q.stats.completed + q.stats.panicked = ps.length ∧
      q.stats.panicked = q.slots.countP Slot.isCrashed := by
  have hfull := taken_of_full h hroom
  have hjoined := h.joined
  have hstarted := h.started
  have hcrashed := h.crashed
  simp only [taken] at htaken
  have hunjoined : q.unjoined = [] := List.length_eq_zero_iff.mp (by omega)
  have hactive : q.slots.countP Slot.isActive = 0 := by
    simp only [active] at htaken
    omega
  simp only [Stats.joined, taken] at hjoined hfull
  refine ⟨by omega, ?_, by omega, ?_⟩
  · simpa [List.countP_eq_zero] using hactive
  · simpa [hunjoined] using hcrashed

end Muster.Running
