/-! The interrupts of a run: the values that its cancellation flag takes over time, and what a pause
sees of them. -/

namespace Muster

/-- The values sent, in order, each with its time; and when the sender went away, if it did. No time is
before the one of the value before. -/
structure Interrupts where
  values : List (Nat × Bool) := []
  closed? : Option Nat := none
  deriving Repr, Inhabited

/-- What someone hears who waits for a change, and when: a value, or that the sender is gone. -/
inductive News where
  | value (time : Nat)
  | gone (time : Nat)
  deriving DecidableEq, Repr

namespace Interrupts

def inOrder (latest : Nat) : List (Nat × Bool) → List (Nat × Bool)
  | [] => []
  | (t, v) :: vs => (max latest t, v) :: inOrder (max latest t) vs

/-- The values of a schedule, up to the time when the sender goes away, if it does. -/
def ofSchedule (values : List (Nat × Bool)) (closed? : Option Nat) : Interrupts where
  values := (inOrder 0 values).filter fun v =>
    match closed? with
    | none => true
    | some t => v.1 ≤ t
  closed? := closed?

def sentBy (i : Interrupts) (time : Nat) : Nat := i.values.countP fun v => v.1 ≤ time

def flagAt (i : Interrupts) (time : Nat) : Bool :=
  match (i.values.filter fun v => v.1 ≤ time).getLast? with
  | none => false
  | some v => v.2

/-- What is heard from `now` on by someone who has seen the first `seen` values. A value that has been
sent but not seen is heard at once, before the end of the sender. -/
def news? (i : Interrupts) (now seen : Nat) : Option News :=
  if seen < i.sentBy now then some (.value now)
  else if i.closed?.any (· ≤ now) then some (.gone now)
  else match i.values.find? fun v => now < v.1 with
    | some v => some (.value v.1)
    | none => i.closed?.map .gone

/-- A pause from `now` to `wake` by someone who has seen the first `seen` values. A value that is heard
before `wake` ends it. Once the sender is gone nothing more is listened for until `wake`. Gives the time
it ends, and how many values have been seen then. -/
def pause (i : Interrupts) (now seen wake : Nat) : Nat × Nat :=
  match i.news? now seen with
  | some (.value time) => if time < wake then (time, max seen (i.sentBy time)) else (wake, seen)
  | some (.gone _) => (wake, seen)
  | none => (wake, seen)

/-- A value that is heard has not been seen, or is the next. -/
theorem news?_eq_value {i : Interrupts} {now seen time : Nat}
    (h : i.news? now seen = some (.value time)) :
    (time = now ∧ seen < i.sentBy now) ∨
      (i.sentBy now ≤ seen ∧ ∃ v, i.values.find? (fun v => now < v.1) = some v ∧ time = v.1) := by
  unfold news? at h
  split at h
  · rename_i hunseen
    cases h
    exact .inl ⟨rfl, hunseen⟩
  · rename_i hseen
    split at h
    · simp at h
    · split at h
      · rename_i v hv
        cases h
        exact .inr ⟨Nat.le_of_not_lt hseen, v, hv, rfl⟩
      · simp at h

/-- No value is heard if all have been seen, and the sender is gone or there are no more. -/
theorem news?_ne_value {i : Interrupts} {now seen : Nat}
    (h : ∀ time, i.news? now seen ≠ some (.value time)) :
    i.sentBy now ≤ seen ∧
      ((∃ t, i.closed? = some t ∧ t ≤ now) ∨ i.values.find? (fun v => now < v.1) = none) := by
  unfold news? at h
  split at h
  · exact absurd rfl (h now)
  · rename_i hseen
    refine ⟨Nat.le_of_not_lt hseen, ?_⟩
    split at h
    · rename_i hclosed
      exact .inl (by simpa [Option.any_eq_true] using hclosed)
    · split at h
      · rename_i v _
        exact absurd rfl (h v.1)
      · rename_i hnone
        exact .inr hnone

theorem pause_of_value {i : Interrupts} {now seen time : Nat}
    (h : i.news? now seen = some (.value time)) (wake : Nat) :
    i.pause now seen wake =
      if time < wake then (time, max seen (i.sentBy time)) else (wake, seen) := by
  rw [pause, h]

theorem pause_of_silence {i : Interrupts} {now seen : Nat}
    (h : ∀ time, i.news? now seen ≠ some (.value time)) (wake : Nat) :
    i.pause now seen wake = (wake, seen) := by
  rw [pause]
  split
  · rename_i time htime
    exact absurd htime (h time)
  · rfl
  · rfl

theorem sentBy_le (i : Interrupts) (time : Nat) : i.sentBy time ≤ i.values.length :=
  List.countP_le_length

end Interrupts

end Muster
