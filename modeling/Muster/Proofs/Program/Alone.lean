import Muster.World

/-! Programs that run with no others beside them. -/

namespace Muster

variable {σ α β : Type}

/-- An effect takes no time until its answer. -/
theorem World.now_begin (b : Backend σ) (own? : Option Nat) (w : World σ) (e : Effect) :
    match w.begin b own? e with
    | .answered _ w' => w'.now = w.now
    | .crashed w' => w'.now = w.now
    | .later time _ w' => w.now ≤ time ∧ w'.now = w.now := by
  cases e with
  | sleepUntil time =>
    by_cases hpast : time ≤ w.now
    · simp [begin, hpast]
    · simp only [begin, hpast, if_false, and_true]
      omega
  | call c =>
    simp only [begin]
    by_cases hdelay : (b.receive c (w.record (.called c)).now (w.record (.called c)).state).delay = 0
    · simp only [hdelay, if_true]
      rcases Reply.deliver _ with ⟨_ | a, state⟩ <;> rfl
    · simp only [hdelay, if_false]
      exact ⟨Nat.le_add_right _ _, rfl⟩
  | change c => cases own? <;> rfl
  | _ => rfl

section Alone

variable {b : Backend σ} {own? : Option Nat} {w : World σ}

theorem runAlone_bind (b : Backend σ) (own? : Option Nat) (p : Program α) (f : α → Program β)
    (w : World σ) :
    runAlone b own? (p.bind f) w =
      match runAlone b own? p w with
      | (some a, w) => runAlone b own? (f a) w
      | (none, w) => (none, w) := by
  induction p generalizing w with
  | done a => rfl
  | crash => rfl
  | act e next ih =>
    simp only [Program.bind, runAlone]
    cases w.begin b own? e with
    | answered a w' => exact ih a w'
    | crashed w' => rfl
    | later time finish w' =>
      simp only
      split
      · exact ih _ _
      · rfl

theorem runAlone_clock (f : Nat → Program β) (w : World σ) :
    runAlone b own? (Program.clock.bind f) w = runAlone b own? (f w.now) w := rfl

theorem runAlone_sleepUntil {time : Nat} (next : (Effect.sleepUntil time).Answer → Program β)
    (h : w.now ≤ time) :
    runAlone b own? (.act (.sleepUntil time) next) w =
      runAlone b own? (next ()) { w with now := time } := by
  simp only [runAlone, World.begin]
  by_cases hpast : time ≤ w.now
  · obtain rfl := Nat.le_antisymm h hpast
    simp
  · simp [hpast]

/-- The clock does not go back while a task runs. -/
theorem now_le_runAlone (b : Backend σ) (own? : Option Nat) (p : Program α) (w : World σ) :
    w.now ≤ (runAlone b own? p w).2.now := by
  induction p generalizing w with
  | done a => exact Nat.le_refl _
  | crash => exact Nat.le_refl _
  | act e next ih =>
    have hnow := w.now_begin b own? e
    simp only [runAlone]
    split
    · rename_i a w₁ hbegin
      rw [hbegin] at hnow
      exact hnow ▸ ih a w₁
    · rename_i w₁ hbegin
      rw [hbegin] at hnow
      exact Nat.le_of_eq hnow.symm
    · rename_i time finish w₁ hbegin
      rw [hbegin] at hnow
      split
      · rename_i a state _
        exact Nat.le_trans hnow.1 (ih a { w₁ with now := time, state })
      · exact hnow.1

theorem now_le_of_runAlone {p : Program α} {a? : Option α} {w' : World σ}
    (h : runAlone b own? p w = (a?, w')) : w.now ≤ w'.now := by
  have hle := now_le_runAlone b own? p w
  rwa [h] at hle

/-- A call that is made alone is the only event. -/
theorem journal_runAlone_call (b : Backend σ) (own? : Option Nat) (c : Call) (w : World σ) :
    (runAlone b own? (Program.call c) w).2.journal = (w.record (.called c)).journal := by
  change (runAlone b own? (Program.perform (.call c)) w).2.journal = _
  simp only [Program.perform, runAlone, World.begin]
  by_cases hdelay : (b.receive c (w.record (.called c)).now (w.record (.called c)).state).delay = 0
  · simp only [hdelay, if_true]
    rcases Reply.deliver _ with ⟨_ | a, state⟩ <;> rfl
  · simp only [hdelay, if_false]
    rcases Reply.deliver _ with ⟨_ | a, state⟩ <;> rfl

/-- A call belongs to no entry. -/
theorem entries_runAlone_call (b : Backend σ) (own? : Option Nat) (c : Call) (w : World σ) :
    (runAlone b own? (Program.call c) w).2.entries = w.entries := by
  change (runAlone b own? (Program.perform (.call c)) w).2.entries = _
  simp only [Program.perform, runAlone, World.begin]
  by_cases hdelay : (b.receive c (w.record (.called c)).now (w.record (.called c)).state).delay = 0
  · simp only [hdelay, if_true]
    rcases Reply.deliver _ with ⟨_ | a, state⟩ <;> rfl
  · simp only [hdelay, if_false]
    rcases Reply.deliver _ with ⟨_ | a, state⟩ <;> rfl

end Alone

end Muster
