import Mathlib.Algebra.Order.Floor.Div
import Muster.Proofs.Wait.Course

/-! How many checks a wait makes. Main statement: no more than there are intervals in the span that it may
take, and values sent before it ends, and one; and with no values and checks that take no time, no fewer
than that. -/

namespace Muster

variable {σ : Type}

namespace Interrupts

def sentBefore (i : Interrupts) (time : Nat) : Nat := i.values.countP fun v => v.1 < time

theorem seen_le_sentBefore {i : Interrupts} {cuts : List Nat} {time : Nat}
    (h : ∀ cut ∈ cuts, cut < time) : i.seen cuts ≤ i.sentBefore time := by
  refine List.countP_mono_left fun v _ hv => ?_
  obtain ⟨cut, hcut, hle⟩ := List.any_eq_true.mp hv
  have hle : v.1 ≤ cut := of_decide_eq_true hle
  have hlt : cut < time := h cut hcut
  exact decide_eq_true (Nat.lt_of_le_of_lt hle hlt)

end Interrupts

namespace WaitPolicy

variable {b : Backend σ} {own? : Option Nat} {p : WaitPolicy}
  {check : Nat → Program (Except ApiError Bool)} {w₀ : World σ} {deadline : Nat}
  {target : String}

/-- A pause is cut short by a value that no pause before was. -/
theorem Due.unseen_of_lt {start time : Nat} {c : Check} {past : List Check}
    (h : p.Due start deadline (c :: past) time) (hlt : time < p.planned deadline c)
    (hcuts : ∀ cut ∈ p.cuts deadline (c :: past), cut ≤ c.ended) :
    p.interrupts.Unseen (p.cuts deadline (c :: past)) time := by
  cases h with
  | unseen hunseen => exact hunseen
  | sent _ hmem hafter _ _ =>
    exact ⟨_, hmem, Nat.le_refl _, fun cut hcut => Nat.lt_of_le_of_lt (hcuts cut hcut) hafter⟩
  | planned => exact absurd hlt (Nat.lt_irrefl _)

theorem lt_planned {c : Check} (h : c.ended < deadline) : c.ended < p.planned deadline c := by
  have := p.interval_pos
  simp only [planned]
  omega

namespace Course

variable {visits past : List (Visit σ)} {w w' : World σ}

theorem start_le (h : Course b own? p check w₀ deadline visits w) : w₀.now ≤ w.now := by
  induction h with
  | start => exact Nat.le_refl _
  | next _ _ hrun hlate hdue ih =>
    have hle := now_le_of_runAlone hrun
    have hafter := (hdue.bounds hlate).1
    exact Nat.le_trans ih (Nat.le_trans hle hafter)

/-- The pauses that were cut short and those that were not. Each of the first has seen another value, and
each of the second has taken an interval, unless the deadline ended it. -/
theorem pauses (h : Course b own? p check w₀ deadline visits w) (ended : Nat) :
    let cuts := p.cuts deadline (⟨w.now, ended⟩ :: visits.map Visit.check)
    cuts.length ≤ p.interrupts.seen cuts ∧
    ∃ full, visits.length = cuts.length + full ∧
      (w.now < deadline → full * p.interval ≤ w.now - w₀.now) := by
  induction h generalizing ended with
  | start => exact ⟨Nat.zero_le _, 0, rfl, fun _ => by omega⟩
  | @next past w w' due hcourse hflag hrun hlate hdue ih =>
    have hle : w.now ≤ w'.now := now_le_of_runAlone hrun
    have hcuts : ∀ cut ∈ p.cuts deadline (⟨w.now, w'.now⟩ :: past.map Visit.check),
        cut ≤ w'.now := fun cut hcut => Nat.le_trans (cuts_le hcourse _ cut hcut) hle
    obtain ⟨hafter, hbefore⟩ := hdue.bounds hlate
    obtain ⟨hseen, full, hlength, htime⟩ := ih w'.now
    have htime := htime (Nat.lt_of_le_of_lt hle hlate)
    have hstart := hcourse.start_le
    change w'.now ≤ due at hafter
    simp only [List.map_cons, List.length_cons, cuts]
    by_cases hcut : due < p.planned deadline ⟨w.now, w'.now⟩
    · have hunseen := hdue.unseen_of_lt hcut hcuts
      have hmore := (Interrupts.seen_lt_iff fun cut hmem =>
        Nat.le_trans (hcuts cut hmem) hafter).mpr hunseen
      have hall : p.interrupts.seen
          (due :: p.cuts deadline (⟨w.now, w'.now⟩ :: past.map Visit.check)) =
            p.interrupts.sentBy due :=
        Interrupts.seen_cons fun cut hmem => Nat.le_trans (hcuts cut hmem) hafter
      simp only [Visit.check, hcut, if_true, List.length_cons]
      change _ < p.interrupts.sentBy due at hmore
      refine ⟨?_, full, by omega, fun _ => by omega⟩
      rw [hall]
      exact Nat.lt_of_le_of_lt hseen hmore
    · have hdue' : due = min (w'.now + p.interval) deadline :=
        Nat.le_antisymm hbefore (Nat.le_of_not_lt hcut)
      simp only [Visit.check, hcut, if_false]
      refine ⟨hseen, full + 1, by omega, fun hlt => ?_⟩
      rw [Nat.succ_mul]
      omega

/-- Each check but the first costs an interval of the span or a value. -/
theorem length_le (h : Course b own? p check w₀ deadline visits w) {ended : Nat}
    (hended : w.now ≤ ended) :
    visits.length ≤ (deadline - w₀.now) ⌈/⌉ p.interval + p.interrupts.sentBefore ended := by
  cases h with
  | start => exact Nat.zero_le _
  | @next past w w' due hcourse hflag hrun hlate hdue =>
    have hle : w.now ≤ w'.now := now_le_of_runAlone hrun
    have hcuts := cuts_le hcourse w'.now
    have hcuts' : ∀ cut ∈ p.cuts deadline (⟨w.now, w'.now⟩ :: past.map Visit.check),
        cut ≤ w'.now := fun cut hcut => Nat.le_trans (hcuts cut hcut) hle
    obtain ⟨hafter, hbefore⟩ := hdue.bounds hlate
    obtain ⟨hseen, full, hlength, htime⟩ := hcourse.pauses w'.now
    have htime := htime (Nat.lt_of_le_of_lt hle hlate)
    have hstart := hcourse.start_le
    change w'.now ≤ due at hafter
    change due ≤ ended at hended
    have hfull : full < (deadline - w₀.now) ⌈/⌉ p.interval := by
      rw [← Nat.not_le, ceilDiv_le_iff_le_mul p.interval_pos, Nat.mul_comm]
      omega
    -- the cuts so far came before this pause ended, which lasted a while or was cut itself
    have hearlier : ∀ cut ∈ p.cuts deadline (⟨w.now, w'.now⟩ :: past.map Visit.check),
        cut < ended := by
      intro cut hcut
      by_cases hnow : due < p.planned deadline ⟨w.now, w'.now⟩
      · obtain ⟨v, -, hsent, hnew⟩ := hdue.unseen_of_lt hnow hcuts'
        have hcut : cut < v.1 := hnew cut hcut
        omega
      · have hlasted : w'.now < p.planned deadline ⟨w.now, w'.now⟩ :=
          lt_planned (c := ⟨w.now, w'.now⟩) hlate
        have hcut := hcuts' cut hcut
        omega
    have hsent := Interrupts.seen_le_sentBefore (i := p.interrupts) hearlier
    rw [List.length_cons]
    omega

/-- Without values, checks that take no time follow one another at full intervals. -/
theorem now_eq (h : Course b own? p check w₀ deadline visits w) (hnone : p.interrupts.values = [])
    (hzero : ∀ n w r w', runAlone b own? (check n) w = (some r, w') → w'.now = w.now)
    (hstart : w₀.now ≤ deadline) :
    w.now = min (w₀.now + visits.length * p.interval) deadline := by
  induction h with
  | start => simpa using hstart
  | @next past w w' due hcourse hflag hrun hlate hdue ih =>
    have hnow : w'.now = w.now := hzero _ _ _ _ hrun
    have hplanned : due = min (w'.now + p.interval) deadline := by
      refine hdue.unique (.planned ?_ ?_)
      · rintro ⟨v, hv, -⟩
        simp [hnone] at hv
      · simp [hnone]
    change due = _
    rw [List.length_cons, Nat.succ_mul]
    omega

end Course

namespace Ends

variable {visits : List (Visit σ)} {w' : World σ} {result : Except CommandError Unit}

theorem length_le (h : Ends b own? p check w₀ deadline target visits result w') :
    visits.length ≤
      1 + (deadline - w₀.now) ⌈/⌉ p.interval + p.interrupts.sentBefore w'.now := by
  cases h with
  | interrupted hcourse =>
    have hle := hcourse.length_le (Nat.le_refl _)
    omega
  | checked hcourse _ hrun =>
    have hle := hcourse.length_le (now_le_of_runAlone hrun)
    rw [List.length_cons]
    omega

/-- Checks that take no time and never find the condition are made until the deadline. -/
theorem length_eq (h : Ends b own? p check w₀ deadline target visits result w')
    (hnone : p.interrupts.values = [])
    (hzero : ∀ n w, ∃ w', runAlone b own? (check n) w = (some (.ok false), w') ∧ w'.now = w.now)
    (hstart : w₀.now ≤ deadline) :
    visits.length = 1 + (deadline - w₀.now) ⌈/⌉ p.interval := by
  have hmost := h.length_le
  have hsent : p.interrupts.sentBefore w'.now = 0 := by simp [Interrupts.sentBefore, hnone]
  have hrun (n : Nat) (w : World σ) {r : Except ApiError Bool} {w' : World σ}
      (hr : runAlone b own? (check n) w = (some r, w')) : r = .ok false ∧ w'.now = w.now := by
    obtain ⟨w₁, hfalse, hnow⟩ := hzero n w
    obtain ⟨hr, rfl⟩ := Prod.mk.inj (hr.symm.trans hfalse)
    exact ⟨Option.some.inj hr, hnow⟩
  cases h with
  | interrupted hcourse hflag => simp [Interrupts.flagAt, hnone] at hflag
  | @checked past w w' r hcourse hflag hlast hlate =>
    obtain ⟨rfl, hnow⟩ := hrun _ _ hlast
    have hdeadline := hlate rfl
    have htime := hcourse.now_eq hnone (fun n w _ _ hr => (hrun n w hr).2) hstart
    have hspan : deadline - w₀.now ≤ p.interval * past.length := by
      rw [Nat.mul_comm]
      omega
    have hleast : (deadline - w₀.now) ⌈/⌉ p.interval ≤ past.length :=
      (ceilDiv_le_iff_le_mul p.interval_pos).mpr hspan
    rw [List.length_cons] at hmost ⊢
    omega

end Ends

/-- A wait on any schedule of interrupts. It makes no more checks than the span that it may take has
intervals, rounded up, and values are sent before it ends, and one. If it does not come to an end, one of
these checks does not. Without values, checks that take no time and never find the condition are made
just so often. -/
theorem checks_at_most {values : List (Nat × Bool)} {closed? : Option Nat}
    (hinterrupts : p.interrupts = .ofSchedule values closed?) (hclock : p.timeout < clockSpan)
    (w : World σ) :
    let intervals := (p.timeout * 1000) ⌈/⌉ p.interval
    let sent (ended : Nat) := p.interrupts.values.countP fun v => v.1 < ended
    (∀ report w', runAlone b own? (p.wait target check) w = (some report, w') →
      report.checks.length ≤ 1 + intervals + sent w'.now) ∧
    (∀ w', runAlone b own? (p.wait target check) w = (none, w') →
      ∃ n w₁, 1 ≤ n ∧ n ≤ 1 + intervals + sent w'.now ∧
        runAlone b own? (check n) w₁ = (none, w')) ∧
    ((∀ n w, ∃ r w', runAlone b own? (check n) w = (some r, w')) →
      ∃ report w', runAlone b own? (p.wait target check) w = (some report, w')) ∧
    (p.interrupts.values = [] →
      (∀ n w, ∃ w', runAlone b own? (check n) w = (some (.ok false), w') ∧ w'.now = w.now) →
      ∃ report w', runAlone b own? (p.wait target check) w = (some report, w') ∧
        report.checks.length = 1 + intervals) := by
  intro intervals sent
  have hsorted : p.interrupts.Sorted := hinterrupts ▸ Interrupts.sorted_ofSchedule values closed?
  have hseen (ended : Nat) :
      0 = p.interrupts.seen (p.cuts (w.now + p.timeout * 1000) [⟨w.now, ended⟩]) := by
    simp [cuts, Interrupts.seen]
  have hwait : runAlone b own? (p.wait target check) w =
      runAlone b own? (p.poll target check (w.now + p.timeout * 1000) w.now 0 []) w := by
    rw [wait, runAlone_clock, if_neg (Nat.not_le_of_lt hclock)]
  have hspan : w.now + p.timeout * 1000 - w.now = p.timeout * 1000 := Nat.add_sub_cancel_left ..
  rcases @course_of_poll _ b own? p check w (w.now + p.timeout * 1000) target hsorted w.now 0 []
      [] w .start rfl rfl hseen with
    ⟨visits, result, w', hpoll, hends⟩ | ⟨visits, w₁, w', hpoll, hcourse, hcrash⟩
  · have hrun := hwait.trans hpoll
    have hmost := hends.length_le
    rw [hspan] at hmost
    refine ⟨fun report w'' h => ?_, fun w'' h => ?_, fun _ => ⟨_, w', hrun⟩, fun hnone hzero => ?_⟩
    · obtain ⟨hreport, rfl⟩ := Prod.mk.inj (hrun.symm.trans h)
      obtain rfl := Option.some.inj hreport
      rw [List.length_reverse, List.length_map]
      exact hmost
    · simp [hrun] at h
    · have hall := hends.length_eq hnone hzero (Nat.le_add_right _ _)
      rw [hspan] at hall
      exact ⟨_, w', hrun, by simpa using hall⟩
  · have hrun := hwait.trans hpoll
    have hmost := hcourse.length_le (now_le_of_runAlone hcrash)
    rw [hspan] at hmost
    refine ⟨fun report w'' h => ?_, fun w'' h => ?_, fun hcheck => ?_, fun _ hzero => ?_⟩
    · simp [hrun] at h
    · obtain ⟨-, rfl⟩ := Prod.mk.inj (hrun.symm.trans h)
      refine ⟨visits.length + 1, w₁, Nat.le_add_left _ _, ?_, hcrash⟩
      change visits.length ≤ intervals + sent w'.now at hmost
      omega
    · obtain ⟨r, w'', hr⟩ := hcheck (visits.length + 1) w₁
      simp [hr] at hcrash
    · obtain ⟨w'', hr, -⟩ := hzero (visits.length + 1) w₁
      simp [hr] at hcrash

/-- Checks every 600 ms for 2 s: at once, three times at full intervals, and at the deadline. -/
theorem checks_at_most_five :
    let b : Backend Unit := ⟨fun _ _ s => ⟨0, s, fun _ s => (.crash, s)⟩⟩
    let p : WaitPolicy := ⟨600, 2, .ofSchedule [] (some 30), by decide⟩
    let check : Nat → Program (Except ApiError Bool) := fun _ => .done (.ok false)
    p.timeout < clockSpan ∧ p.interrupts.values = [] ∧
    (∀ n w, ∃ w', runAlone b none (check n) w = (some (.ok false), w') ∧ w'.now = w.now) ∧
    ∃ report w', runAlone b none (p.wait "x" check) { state := () } = (some report, w') ∧
      report.checks.length = 5 := by
  intro b p check
  have hclock : p.timeout < clockSpan := by decide
  have hzero : ∀ n w, ∃ w', runAlone b none (check n) w = (some (.ok false), w') ∧
      w'.now = w.now := fun _ w => ⟨w, rfl, rfl⟩
  obtain ⟨-, -, -, hall⟩ := @checks_at_most _ b none p check "x" [] (some 30) rfl hclock
    { state := () }
  obtain ⟨report, w', hrun, hlength⟩ := hall rfl hzero
  have hfive : 1 + (p.timeout * 1000) ⌈/⌉ p.interval = 5 := by decide
  exact ⟨hclock, rfl, hzero, report, w', hrun, hlength.trans hfive⟩

end WaitPolicy

end Muster
