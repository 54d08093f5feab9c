import Muster.Interrupts
import Muster.Program

/-! Waiting for a condition: it is checked again and again, with pauses in between, until it holds, a
check fails, the time is up, or the run is interrupted. -/

namespace Muster

/-- How long to wait: the pause between checks in milliseconds, and the greatest span in seconds; and
what may interrupt a wait. -/
structure WaitPolicy where
  interval : Nat
  timeout : Nat
  interrupts : Interrupts := {}
  interval_pos : 0 < interval

def WaitPolicy.ofConfig (interval timeout : Nat) (interrupts : Interrupts) : WaitPolicy :=
  ⟨max 1 interval, max 1 timeout, interrupts, by omega⟩

structure Check where
  began : Nat
  ended : Nat
  deriving DecidableEq, Repr

structure WaitReport where
  checks : List Check
  result : Except CommandError Unit

/-- A span of so many seconds leads beyond every time that the clock can tell. -/
def clockSpan : Nat := Nat.pow 2 63 - 1

/-- A pause that begins before the deadline gets closer to it, or sees more of the interrupts. -/
theorem Interrupts.pause_decreases (i : Interrupts) {start now seen interval deadline : Nat}
    (hpos : 0 < interval) (hstart : start ≤ now) (hnow : now < deadline) :
    deadline - (i.pause now seen (min (now + interval) deadline)).1 +
        (i.values.length - (i.pause now seen (min (now + interval) deadline)).2) <
      deadline - start + (i.values.length - seen) := by
  by_cases hnews : ∃ time, i.news? now seen = some (.value time)
  · obtain ⟨time, htime⟩ := hnews
    have hle := i.sentBy_le now
    have hcase : time = now ∧ seen < i.sentBy now ∨ now < time := by
      rcases news?_eq_value htime with hunseen | ⟨-, v, hv, rfl⟩
      · exact .inl hunseen
      · exact .inr (by simpa using List.find?_some hv)
    rw [pause_of_value htime]
    split
    · rcases hcase with ⟨rfl, hunseen⟩ | hlater
      · simp only
        omega
      · simp only
        omega
    · simp only
      omega
  · rw [pause_of_silence (not_exists.mp hnews)]
    simp only
    omega

/-- The checks of a wait from the time `now` on, after those of `past`, whose latest is first. -/
def WaitPolicy.poll (p : WaitPolicy) (target : String)
    (check : Nat → Program (Except ApiError Bool)) (deadline now seen : Nat) (past : List Check) :
    Program WaitReport :=
  let stop (checks : List Check) (result : Except CommandError Unit) : Program WaitReport :=
    .done ⟨checks.reverse, result⟩
  if p.interrupts.flagAt now then
    stop past (.error (.timeout (.cancelled target)))
  else
    (check (past.length + 1)).bind fun ready => Program.clock.bind fun time =>
      let ended := max now time
      let checks := ⟨now, ended⟩ :: past
      match ready with
      | .error e => stop checks (.error (.api e))
      | .ok true => stop checks (.ok ())
      | .ok false =>
        if h : deadline ≤ ended then
          stop checks (.error (.timeout (.deadlineExceeded target (p.timeout * 1000))))
        else
          let pause := p.interrupts.pause ended seen (min (ended + p.interval) deadline)
          (Program.sleepUntil pause.1).bind fun _ =>
            p.poll target check deadline pause.1 pause.2 checks
termination_by deadline - now + (p.interrupts.values.length - seen)
decreasing_by
  exact Interrupts.pause_decreases p.interrupts p.interval_pos (Nat.le_max_left now time)
    (Nat.lt_of_not_le h)

/-- Waits until a check says that the condition holds. The checks are numbered from one. A task whose
deadline lies beyond the clock crashes. -/
def WaitPolicy.wait (p : WaitPolicy) (target : String)
    (check : Nat → Program (Except ApiError Bool)) : Program WaitReport :=
  Program.clock.bind fun now =>
    if clockSpan ≤ p.timeout then .crash
    else p.poll target check (now + p.timeout * 1000) now 0 []

end Muster
