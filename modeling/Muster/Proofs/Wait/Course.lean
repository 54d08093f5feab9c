import Muster.Proofs.Program.Alone
import Muster.Proofs.Wait.Due

/-! The course of a wait. Main statements: a wait whose checks do not crash has a result, each check begins
when it is due and while nothing has interrupted the run, and the last of them or an interrupt decides. -/

namespace Muster

variable {σ : Type}

/-- A check of a wait: the world when it began, the world when it ended, and what it said. -/
structure Visit (σ : Type) where
  before : World σ
  after : World σ
  result : Except ApiError Bool

def Visit.check (v : Visit σ) : Check := ⟨v.before.now, v.after.now⟩

namespace WaitPolicy

/-- What a wait comes to after its last check. -/
def verdict (p : WaitPolicy) (target : String) : Except ApiError Bool → Except CommandError Unit
  | .ok true => .ok ()
  | .ok false => .error (.timeout (.deadlineExceeded target (p.timeout * 1000)))
  | .error e => .error (.api e)

section Verdict

variable {p : WaitPolicy} {target : String} {result : Except ApiError Bool}

theorem verdict_eq_ok : p.verdict target result = .ok () ↔ result = .ok true := by
  match result with
  | .ok true | .ok false | .error e => simp [verdict]

theorem verdict_eq_api {e : ApiError} :
    p.verdict target result = .error (.api e) ↔ result = .error e := by
  match result with
  | .ok true | .ok false | .error e => simp [verdict]

theorem verdict_eq_late :
    p.verdict target result = .error (.timeout (.deadlineExceeded target (p.timeout * 1000))) ↔
      result = .ok false := by
  match result with
  | .ok true | .ok false | .error e => simp [verdict]

theorem verdict_ne_cancelled :
    p.verdict target result ≠ .error (.timeout (.cancelled target)) := by
  match result with
  | .ok true | .ok false | .error e => simp [verdict]

end Verdict

section Course

variable (b : Backend σ) (own? : Option Nat) (p : WaitPolicy)
  (check : Nat → Program (Except ApiError Bool)) (w₀ : World σ) (deadline : Nat)

/-- The checks of a wait that has not come to an end, the latest first, and the world at the time when the
next is due. -/
inductive Course : List (Visit σ) → World σ → Prop where
  | start : Course [] w₀
  | next {past : List (Visit σ)} {w w' : World σ} {due : Nat} :
    Course past w → p.interrupts.flagAt w.now = false →
    runAlone b own? (check (past.length + 1)) w = (some (.ok false), w') → w'.now < deadline →
    p.Due w₀.now deadline ((⟨w, w', .ok false⟩ :: past).map Visit.check) due →
    Course (⟨w, w', .ok false⟩ :: past) { w' with now := due }

/-- All checks of a wait, the latest first, its result and the world at its end. -/
inductive Ends (target : String) :
    List (Visit σ) → Except CommandError Unit → World σ → Prop where
  | interrupted {visits : List (Visit σ)} {w : World σ} :
    Course b own? p check w₀ deadline visits w → p.interrupts.flagAt w.now = true →
    Ends target visits (.error (.timeout (.cancelled target))) w
  | checked {past : List (Visit σ)} {w w' : World σ} {result : Except ApiError Bool} :
    Course b own? p check w₀ deadline past w → p.interrupts.flagAt w.now = false →
    runAlone b own? (check (past.length + 1)) w = (some result, w') →
    (result = .ok false → deadline ≤ w'.now) →
    Ends target (⟨w, w', result⟩ :: past) (p.verdict target result) w'

end Course

variable {b : Backend σ} {own? : Option Nat} {p : WaitPolicy}
  {check : Nat → Program (Except ApiError Bool)} {w₀ : World σ} {deadline : Nat}
  {target : String}

theorem cuts_le {past : List (Visit σ)} {w : World σ}
    (h : Course b own? p check w₀ deadline past w) (ended : Nat) :
    ∀ cut ∈ p.cuts deadline (⟨w.now, ended⟩ :: past.map Visit.check), cut ≤ w.now := by
  induction h generalizing ended with
  | start => simp [cuts]
  | @next past w w' due hcourse hflag hrun hlate hdue ih =>
    have hle : w.now ≤ w'.now := now_le_of_runAlone hrun
    have hbounds := hdue.bounds hlate
    have hpast : ∀ cut ∈ p.cuts deadline ((⟨w, w', .ok false⟩ :: past).map Visit.check),
        cut ≤ due := fun cut hcut =>
      Nat.le_trans (ih w'.now cut hcut) (Nat.le_trans hle hbounds.1)
    intro cut hcut
    simp only [List.map_cons, cuts] at hcut
    split at hcut
    · rcases List.mem_cons.mp hcut with rfl | hcut
      · exact Nat.le_refl _
      · exact hpast cut hcut
    · exact hpast cut hcut

/-- From the time that a check is due, the wait comes to an end, or to a check that crashes. -/
theorem course_of_poll (hsorted : p.interrupts.Sorted) (now seen : Nat) (checks : List Check)
    {past : List (Visit σ)} {w : World σ} (hcourse : Course b own? p check w₀ deadline past w)
    (hnow : now = w.now) (hchecks : checks = past.map Visit.check)
    (hseen : ∀ ended, seen = p.interrupts.seen (p.cuts deadline (⟨now, ended⟩ :: checks))) :
    (∃ visits result w', runAlone b own? (p.poll target check deadline now seen checks) w =
        (some ⟨(visits.map Visit.check).reverse, result⟩, w') ∧
      Ends b own? p check w₀ deadline target visits result w') ∨
    ∃ visits w₁ w', runAlone b own? (p.poll target check deadline now seen checks) w = (none, w') ∧
      Course b own? p check w₀ deadline visits w₁ ∧
      runAlone b own? (check (visits.length + 1)) w₁ = (none, w') := by
  -- by the recursion of the wait, whose pauses come closer to the deadline or see more values
  fun_induction WaitPolicy.poll p target check deadline now seen checks generalizing past w with
  | case1 now seen checks stop =>
    rename_i hflag
    subst hnow hchecks
    exact .inl ⟨past, _, w, rfl, .interrupted hcourse hflag⟩
  | case2 now seen checks stop hflag =>
    rename_i ih
    subst hnow hchecks
    have hflag : p.interrupts.flagAt w.now = false := by simpa using hflag
    rw [List.length_map, runAlone_bind]
    rcases hrun : runAlone b own? (check (past.length + 1)) w with ⟨_ | r, w'⟩
    · exact .inr ⟨past, w, w', rfl, hcourse, hrun⟩
    have hle : w.now ≤ w'.now := now_le_of_runAlone hrun
    have hended : max w.now w'.now = w'.now := Nat.max_eq_right hle
    have ih := ih w'.now
    simp only [runAlone_clock, hended] at ih ⊢
    cases r with
    | error e =>
      exact .inl ⟨_ :: past, _, w', rfl, .checked hcourse hflag hrun fun hfalse => by cases hfalse⟩
    | ok holds =>
      cases holds with
      | true =>
        exact .inl ⟨_ :: past, _, w', rfl,
          .checked hcourse hflag hrun fun hfalse => by cases hfalse⟩
      | false =>
        by_cases hlate : deadline ≤ w'.now
        · simp only [hlate, dite_true]
          exact .inl ⟨_ :: past, _, w', rfl, .checked hcourse hflag hrun fun _ => hlate⟩
        · simp only [hlate, dite_false]
          have hcuts : ∀ cut ∈ p.cuts deadline (⟨w.now, w'.now⟩ :: past.map Visit.check),
              cut ≤ w'.now := fun cut hcut => Nat.le_trans (cuts_le hcourse _ cut hcut) hle
          obtain rfl := hseen w'.now
          obtain ⟨hdue, hnext⟩ := @due_of_pause p w₀.now deadline hsorted ⟨w.now, w'.now⟩
            (past.map Visit.check) (Nat.lt_of_not_le hlate) hcuts
          have hlater := (hdue.bounds (Nat.lt_of_not_le hlate)).1
          have hcourse' := Course.next hcourse hflag hrun (Nat.lt_of_not_le hlate) hdue
          rcases ih hlate hcourse' rfl rfl hnext with
            ⟨visits, result, w'', hpoll, hends⟩ | ⟨visits, w₁, w'', hpoll, hlast⟩
          · exact .inl ⟨visits, result, w'', (runAlone_sleepUntil _ hlater).trans hpoll, hends⟩
          · exact .inr ⟨visits, w₁, w'', (runAlone_sleepUntil _ hlater).trans hpoll, hlast⟩

/-- A wait whose checks do not crash comes to an end. -/
theorem ends_of_poll (hsorted : p.interrupts.Sorted)
    (hcheck : ∀ n w, ∃ r w', runAlone b own? (check n) w = (some r, w')) (now seen : Nat)
    (checks : List Check) {past : List (Visit σ)} {w : World σ}
    (hcourse : Course b own? p check w₀ deadline past w) (hnow : now = w.now)
    (hchecks : checks = past.map Visit.check)
    (hseen : ∀ ended, seen = p.interrupts.seen (p.cuts deadline (⟨now, ended⟩ :: checks))) :
    ∃ visits result w', runAlone b own? (p.poll target check deadline now seen checks) w =
        (some ⟨(visits.map Visit.check).reverse, result⟩, w') ∧
      Ends b own? p check w₀ deadline target visits result w' := by
  refine (course_of_poll hsorted now seen checks hcourse hnow hchecks hseen).resolve_right ?_
  rintro ⟨visits, w₁, w', -, -, hcrash⟩
  obtain ⟨r, w'', hrun⟩ := hcheck (visits.length + 1) w₁
  rw [hrun] at hcrash
  simp at hcrash

namespace Course

variable {visits past : List (Visit σ)} {w w' : World σ} {v : Visit σ}
  {result : Except CommandError Unit}

theorem due (h : Course b own? p check w₀ deadline visits w) :
    p.Due w₀.now deadline (visits.map Visit.check) w.now := by
  cases h with
  | start => exact .first
  | next _ _ _ _ hdue => exact hdue

theorem now_le (h : Course b own? p check w₀ deadline visits w) (hstart : w₀.now ≤ deadline) :
    w.now ≤ deadline := by
  cases h with
  | start => exact hstart
  | next _ _ _ hlate hdue =>
    exact Nat.le_trans (hdue.bounds hlate).2 (Nat.min_le_right _ _)

/-- A check was due when it began, and the wait went on after it. -/
theorem visit (h : Course b own? p check w₀ deadline visits w) (hv : v :: past <:+ visits) :
    Course b own? p check w₀ deadline past v.before ∧ p.interrupts.flagAt v.before.now = false ∧
      runAlone b own? (check (past.length + 1)) v.before = (some v.result, v.after) ∧
      v.result = .ok false ∧ v.after.now < deadline := by
  induction h with
  | start => simp at hv
  | next hcourse hflag hrun hlate hdue ih =>
    rcases List.suffix_cons_iff.mp hv with heq | hv
    · cases heq
      exact ⟨hcourse, hflag, hrun, rfl, hlate⟩
    · exact ih hv

/-- After a check comes the next, when it is due. -/
theorem after (h : Course b own? p check w₀ deadline visits w) (hv : v :: past <:+ visits) :
    ∃ due, p.Due w₀.now deadline ((v :: past).map Visit.check) due ∧
      ((v :: past = visits ∧ w = { v.after with now := due }) ∨
        ∃ v', v' :: v :: past <:+ visits ∧ v'.before = { v.after with now := due }) := by
  induction h with
  | start => simp at hv
  | @next before w₁ w₂ due hcourse hflag hrun hlate hdue ih =>
    rcases List.suffix_cons_iff.mp hv with heq | hv
    · cases heq
      exact ⟨due, hdue, .inl ⟨rfl, rfl⟩⟩
    · obtain ⟨due', hdue', ⟨rfl, hw⟩ | ⟨v', hv', hbefore⟩⟩ := ih hv
      · exact ⟨due', hdue', .inr ⟨_, List.suffix_refl _, hw⟩⟩
      · exact ⟨due', hdue', .inr ⟨v', hv'.trans (List.suffix_cons _ _), hbefore⟩⟩

end Course

namespace Ends

variable {visits past : List (Visit σ)} {w w' : World σ} {v : Visit σ} {due : Nat}
  {result : Except CommandError Unit}

theorem visit (h : Ends b own? p check w₀ deadline target visits result w')
    (hv : v :: past <:+ visits) :
    Course b own? p check w₀ deadline past v.before ∧ p.interrupts.flagAt v.before.now = false ∧
      runAlone b own? (check (past.length + 1)) v.before = (some v.result, v.after) ∧
      (v :: past ≠ visits → v.result = .ok false ∧ v.after.now < deadline) := by
  cases h with
  | interrupted hcourse =>
    obtain ⟨hpast, hflag, hrun, hfalse, hlate⟩ := hcourse.visit hv
    exact ⟨hpast, hflag, hrun, fun _ => ⟨hfalse, hlate⟩⟩
  | checked hcourse hflag hrun =>
    rcases List.suffix_cons_iff.mp hv with heq | hv
    · cases heq
      exact ⟨hcourse, hflag, hrun, fun hne => absurd rfl hne⟩
    · obtain ⟨hpast, hflag, hrun, hfalse, hlate⟩ := hcourse.visit hv
      exact ⟨hpast, hflag, hrun, fun _ => ⟨hfalse, hlate⟩⟩

/-- After a check that lets the wait go on, the next is made when it is due, unless the run has been
interrupted by then. -/
theorem goes_on (h : Ends b own? p check w₀ deadline target visits result w')
    (hv : v :: past <:+ visits) (hfalse : v.result = .ok false) (hlate : v.after.now < deadline)
    (hdue : p.Due w₀.now deadline ((v :: past).map Visit.check) due) :
    (p.interrupts.flagAt due = true ∧ v :: past = visits ∧ w'.now = due ∧
      result = .error (.timeout (.cancelled target))) ∨
    (p.interrupts.flagAt due = false ∧ ∃ v', v' :: v :: past <:+ visits ∧ v'.before.now = due) := by
  cases h with
  | interrupted hcourse hflag =>
    obtain ⟨due', hdue', hcase⟩ := hcourse.after hv
    obtain rfl := hdue.unique hdue'
    rcases hcase with ⟨heq, rfl⟩ | ⟨v', hv', hbefore⟩
    · exact .inl ⟨hflag, heq, rfl, rfl⟩
    · have hnow : v'.before.now = due := by rw [hbefore]
      exact .inr ⟨hnow ▸ (hcourse.visit hv').2.1, v', hv', hnow⟩
  | checked hcourse hflag hrun hlast =>
    rcases List.suffix_cons_iff.mp hv with heq | hv
    · cases heq
      exact absurd hlate (Nat.not_lt_of_le (hlast hfalse))
    · obtain ⟨due', hdue', hcase⟩ := hcourse.after hv
      obtain rfl := hdue.unique hdue'
      rcases hcase with ⟨rfl, rfl⟩ | ⟨v', hv', hbefore⟩
      · exact .inr ⟨hflag, _, List.suffix_refl _, rfl⟩
      · have hnow : v'.before.now = due := by rw [hbefore]
        exact .inr ⟨hnow ▸ (hcourse.visit hv').2.1, v', hv'.trans (List.suffix_cons _ _), hnow⟩

/-- The last check decides, or an interrupt does before another. -/
theorem decided (h : Ends b own? p check w₀ deadline target visits result w') :
    (∃ v past, visits = v :: past ∧ result = p.verdict target v.result ∧
      (v.result = .ok false → deadline ≤ v.after.now)) ∨
    (result = .error (.timeout (.cancelled target)) ∧
      (∀ v ∈ visits.head?, v.result = .ok false ∧ v.after.now < deadline) ∧
      p.Due w₀.now deadline (visits.map Visit.check) w'.now ∧
      p.interrupts.flagAt w'.now = true) := by
  cases h with
  | interrupted hcourse hflag =>
    refine .inr ⟨rfl, fun v hv => ?_, hcourse.due, hflag⟩
    obtain ⟨past, rfl⟩ := List.head?_eq_some_iff.mp hv
    obtain ⟨-, -, -, hfalse, hlate⟩ := hcourse.visit (List.suffix_refl _)
    exact ⟨hfalse, hlate⟩
  | checked hcourse hflag hrun hlast => exact .inl ⟨_, _, rfl, rfl, hlast⟩

theorem ok_iff (h : Ends b own? p check w₀ deadline target visits result w') :
    result = .ok () ↔ ∃ v ∈ visits.head?, v.result = .ok true := by
  rcases h.decided with ⟨v, past, rfl, rfl, -⟩ | ⟨rfl, hgoes, -⟩
  · simp [verdict_eq_ok]
  · refine ⟨fun heq => (nomatch heq), fun ⟨v, hv, htrue⟩ => ?_⟩
    cases htrue.symm.trans (hgoes v hv).1

theorem api_iff (h : Ends b own? p check w₀ deadline target visits result w') (e : ApiError) :
    result = .error (.api e) ↔ ∃ v ∈ visits.head?, v.result = .error e := by
  rcases h.decided with ⟨v, past, rfl, rfl, -⟩ | ⟨rfl, hgoes, -⟩
  · simp [verdict_eq_api]
  · refine ⟨fun heq => (nomatch heq), fun ⟨v, hv, herror⟩ => ?_⟩
    cases herror.symm.trans (hgoes v hv).1

theorem late_iff (h : Ends b own? p check w₀ deadline target visits result w') :
    result = .error (.timeout (.deadlineExceeded target (p.timeout * 1000))) ↔
      ∃ v ∈ visits.head?, v.result = .ok false ∧ deadline ≤ v.after.now := by
  rcases h.decided with ⟨v, past, rfl, rfl, hlast⟩ | ⟨rfl, hgoes, -⟩
  · simpa [verdict_eq_late] using hlast
  · refine ⟨fun heq => (nomatch heq), fun ⟨v, hv, _, hlate⟩ => ?_⟩
    exact absurd (hgoes v hv).2 (Nat.not_lt_of_le hlate)

theorem cancelled_iff (h : Ends b own? p check w₀ deadline target visits result w') :
    result = .error (.timeout (.cancelled target)) ↔
      (∀ v ∈ visits.head?, v.result = .ok false ∧ v.after.now < deadline) ∧
      ∃ due, p.Due w₀.now deadline (visits.map Visit.check) due ∧
        p.interrupts.flagAt due = true := by
  rcases h.decided with ⟨v, past, rfl, rfl, hlast⟩ | ⟨rfl, hgoes, hdue, hflag⟩
  · refine ⟨fun heq => absurd heq verdict_ne_cancelled, fun ⟨hgoes, _⟩ => ?_⟩
    obtain ⟨hfalse, hlate⟩ := hgoes v rfl
    exact absurd hlate (Nat.not_lt_of_le (hlast hfalse))
  · exact ⟨fun _ => ⟨hgoes, _, hdue, hflag⟩, fun _ => rfl⟩

theorem kinds (h : Ends b own? p check w₀ deadline target visits result w') :
    result = .ok () ∨ (∃ e, result = .error (.api e)) ∨
      result = .error (.timeout (.deadlineExceeded target (p.timeout * 1000))) ∨
      result = .error (.timeout (.cancelled target)) := by
  rcases h.decided with ⟨v, past, -, rfl, -⟩ | ⟨hcancelled, -⟩
  · match v.result with
    | .ok true => exact .inl rfl
    | .ok false => exact .inr (.inr (.inl rfl))
    | .error e => exact .inr (.inl ⟨e, rfl⟩)
  · exact .inr (.inr (.inr hcancelled))

end Ends

section Pause

variable {visits past : List (Visit σ)} {w' : World σ} {v : Visit σ} {due sent : Nat}
  {result : Except CommandError Unit}

theorem cuts_le_of_visit (hpast : Course b own? p check w₀ deadline past v.before) :
    ∀ cut ∈ p.cuts deadline ((v :: past).map Visit.check), cut ≤ v.before.now :=
  cuts_le hpast v.after.now

/-- A value that is true when the next check is due has been sent at that very time. -/
theorem sent_eq_due (hsorted : p.interrupts.Sorted)
    (h : Ends b own? p check w₀ deadline target visits result w') (hv : v :: past <:+ visits)
    (hdue : p.Due w₀.now deadline ((v :: past).map Visit.check) due) (hsent : v.after.now ≤ sent)
    (hcurrent : p.interrupts.current? due = some (sent, true)) : sent = due := by
  obtain ⟨hmem, hle, hlast⟩ := Interrupts.sent_of_current hsorted hcurrent
  obtain ⟨hpast, hflag, hrun, -⟩ := h.visit hv
  change p.Due w₀.now deadline (v.check :: past.map Visit.check) due at hdue
  cases hdue with
  | unseen => exact Nat.le_antisymm hle hsent
  | sent _ hmem' => exact Nat.le_antisymm hle (hlast _ hmem' (Nat.le_refl _))
  | planned hnone hlate =>
    rcases Nat.eq_or_lt_of_le hsent with heq | hlater
    -- sent at the end of the check, and seen by then, so that it counted when the check began
    · obtain ⟨cut, hcut, hseen⟩ : ∃ cut ∈ p.cuts deadline ((v :: past).map Visit.check),
          sent ≤ cut := by
        by_contra hall
        exact hnone ⟨_, hmem, Nat.le_of_eq heq.symm, by simpa using hall⟩
      have hbegan := Nat.le_trans hseen (cuts_le_of_visit hpast cut hcut)
      have hsame : p.interrupts.flagAt v.before.now = p.interrupts.flagAt (p.planned deadline v.check) :=
        Interrupts.flagAt_congr fun u hu =>
          ⟨fun hu' => Nat.le_trans hu' (Nat.le_trans (now_le_of_runAlone hrun) (heq ▸ hle)),
            fun hu' => Nat.le_trans (hlast u hu hu') hbegan⟩
      rw [hflag, Interrupts.flagAt_of_current hcurrent] at hsame
      exact absurd hsame Bool.false_ne_true
    · exact Nat.le_antisymm hle (hlate _ hmem hlater)

/-- Without a value that has not been seen, and without another, nothing changes until the next check. -/
theorem flag_planned (h : Ends b own? p check w₀ deadline target visits result w')
    (hv : v :: past <:+ visits) (hlate : v.after.now < deadline)
    (hseen : ¬ p.interrupts.Unseen (p.cuts deadline ((v :: past).map Visit.check)) v.after.now)
    (hnone : ∀ u ∈ p.interrupts.values, v.after.now < u.1 → p.planned deadline v.check < u.1) :
    p.interrupts.flagAt (p.planned deadline v.check) = false := by
  obtain ⟨hpast, hflag, hrun, -⟩ := h.visit hv
  have hplanned : v.after.now ≤ p.planned deadline v.check :=
    Nat.le_min.mpr ⟨Nat.le_add_right _ _, Nat.le_of_lt hlate⟩
  refine (Interrupts.flagAt_congr fun u hu => ?_).trans hflag
  constructor
  · intro hle
    have hended : u.1 ≤ v.after.now := by
      by_contra hlater
      exact absurd hle (Nat.not_le_of_lt (hnone u hu (Nat.lt_of_not_le hlater)))
    obtain ⟨cut, hcut, hle⟩ : ∃ cut ∈ p.cuts deadline ((v :: past).map Visit.check),
        u.1 ≤ cut := by
      by_contra hall
      exact hseen ⟨u, hu, hended, by simpa using hall⟩
    exact Nat.le_trans hle (cuts_le_of_visit hpast cut hcut)
  · intro hle
    exact Nat.le_trans hle (Nat.le_trans (now_le_of_runAlone hrun) hplanned)

end Pause

/-- A wait on any schedule of interrupts, with checks that do not crash. Each check is made when it is due,
while nothing has interrupted the run, no later than the deadline, and after others that let the wait go
on. The last check gives the result, or the run is interrupted when the next is due. A value that
interrupts the run ends the wait at once, and without values the pauses are as long as they may be. The
checks are given with the latest first. -/
theorem checks_made_when_due {values : List (Nat × Bool)} {closed? : Option Nat}
    (hinterrupts : p.interrupts = .ofSchedule values closed?) (hclock : p.timeout < clockSpan)
    (hcheck : ∀ n w, ∃ r w', runAlone b own? (check n) w = (some r, w')) (w : World σ) :
    let deadline := w.now + p.timeout * 1000
    let cancelled : Except CommandError Unit := .error (.timeout (.cancelled target))
    let late : Except CommandError Unit :=
      .error (.timeout (.deadlineExceeded target (p.timeout * 1000)))
    ∃ (visits : List (Visit σ)) (result : Except CommandError Unit) (w' : World σ),
      runAlone b own? (p.wait target check) w =
        (some ⟨(visits.map Visit.check).reverse, result⟩, w') ∧
      (∀ v past, v :: past <:+ visits →
        runAlone b own? (check (past.length + 1)) v.before = (some v.result, v.after) ∧
        p.Due w.now deadline (past.map Visit.check) v.before.now ∧
        p.interrupts.flagAt v.before.now = false ∧ v.before.now ≤ deadline ∧
        (v :: past ≠ visits → v.result = .ok false ∧ v.after.now < deadline)) ∧
      (result = .ok () ∨ (∃ e, result = .error (.api e)) ∨ result = late ∨ result = cancelled) ∧
      (result = .ok () ↔ ∃ v ∈ visits.head?, v.result = .ok true) ∧
      (∀ e, result = .error (.api e) ↔ ∃ v ∈ visits.head?, v.result = .error e) ∧
      (result = late ↔ ∃ v ∈ visits.head?, v.result = .ok false ∧ deadline ≤ v.after.now) ∧
      (result = cancelled ↔
        (∀ v ∈ visits.head?, v.result = .ok false ∧ v.after.now < deadline) ∧
        ∃ due, p.Due w.now deadline (visits.map Visit.check) due ∧
          p.interrupts.flagAt due = true) ∧
      ∀ v past, v :: past <:+ visits → v.result = .ok false → v.after.now < deadline →
        (∀ due sent, p.Due w.now deadline ((v :: past).map Visit.check) due →
          p.interrupts.current? due = some (sent, true) → v.after.now ≤ sent →
          v :: past = visits ∧ result = cancelled ∧ due = sent ∧ w'.now = sent) ∧
        (¬ p.interrupts.Unseen (p.cuts deadline ((v :: past).map Visit.check)) v.after.now →
          (∀ u ∈ p.interrupts.values, v.after.now < u.1 →
            min (v.after.now + p.interval) deadline < u.1) →
          ∃ v', v' :: v :: past <:+ visits ∧
            v'.before.now = min (v.after.now + p.interval) deadline) := by
  intro deadline cancelled late
  have hsorted : p.interrupts.Sorted := hinterrupts ▸ Interrupts.sorted_ofSchedule values closed?
  have hseen (ended : Nat) : 0 = p.interrupts.seen (p.cuts deadline [⟨w.now, ended⟩]) := by
    simp [cuts, Interrupts.seen]
  obtain ⟨visits, result, w', hpoll, hends⟩ := @ends_of_poll _ b own? p check w deadline target
    hsorted hcheck w.now 0 [] [] w .start rfl rfl hseen
  have hwait : runAlone b own? (p.wait target check) w =
      runAlone b own? (p.poll target check deadline w.now 0 []) w := by
    rw [wait, runAlone_clock, if_neg (Nat.not_le_of_lt hclock)]
  refine ⟨visits, result, w', hwait.trans hpoll, fun v past hv => ?_, hends.kinds, hends.ok_iff,
    hends.api_iff, hends.late_iff, hends.cancelled_iff, fun v past hv hfalse hlate =>
      ⟨fun due sent hdue hcurrent hsent => ?_, fun hseen hnone => ?_⟩⟩
  · obtain ⟨hpast, hflag, hrun, hlast⟩ := hends.visit hv
    exact ⟨hrun, hpast.due, hflag, hpast.now_le (Nat.le_add_right _ _), hlast⟩
  · obtain rfl := sent_eq_due hsorted hends hv hdue hsent hcurrent
    rcases hends.goes_on hv hfalse hlate hdue with ⟨-, heq, hnow, hresult⟩ | ⟨hflag, -⟩
    · exact ⟨heq, hresult, rfl, hnow⟩
    · rw [Interrupts.flagAt_of_current hcurrent] at hflag
      exact absurd hflag.symm Bool.false_ne_true
  · have hplanned := flag_planned hends hv hlate hseen hnone
    have hdue : p.Due w.now deadline ((v :: past).map Visit.check) (p.planned deadline v.check) :=
      .planned hseen fun u hu hlater => Nat.le_of_lt (hnone u hu hlater)
    rcases hends.goes_on hv hfalse hlate hdue with ⟨hflag, -⟩ | ⟨-, v', hv', hnow⟩
    · rw [hplanned] at hflag
      exact absurd hflag Bool.false_ne_true
    · exact ⟨v', hv', hnow⟩

/-- An interrupt during the first pause. -/
theorem checks_made_when_due_interrupted :
    let b : Backend Unit := ⟨fun _ _ s => ⟨0, s, fun _ s => (.crash, s)⟩⟩
    let p : WaitPolicy := ⟨50, 2, .ofSchedule [(20, true)] (some 30), by decide⟩
    let check : Nat → Program (Except ApiError Bool) := fun _ => .done (.ok false)
    p.timeout < clockSpan ∧ (∀ n w, ∃ r w', runAlone b none (check n) w = (some r, w')) ∧
    ∃ w', runAlone b none (p.wait "x" check) { state := () } =
        (some ⟨[⟨0, 0⟩], .error (.timeout (.cancelled "x"))⟩, w') ∧ w'.now = 20 := by
  intro b p check
  have hclock : p.timeout < clockSpan := by decide
  have hcheck : ∀ n w, ∃ r w', runAlone b none (check n) w = (some r, w') := fun _ _ => ⟨_, _, rfl⟩
  refine ⟨hclock, hcheck, ?_⟩
  obtain ⟨visits, result, w', hrun, hmade, hkinds, hok, hapi, hlate, hcancelled, hgoes⟩ :=
    @checks_made_when_due _ b none p check "x" [(20, true)] (some 30) rfl hclock hcheck
      { state := () }
  have hne : visits ≠ [] := by
    rintro rfl
    have hresult : result = .error (.timeout (.cancelled "x")) := by simp_all
    obtain ⟨-, due, hdue, hflag⟩ := hcancelled.mp hresult
    obtain rfl := hdue.unique .first
    exact absurd hflag (by decide)
  obtain ⟨later, v, rfl⟩ := (List.eq_nil_or_concat' visits).resolve_left hne
  have hv : [v] <:+ later ++ [v] := List.suffix_append _ _
  obtain ⟨hfirst, hdue, -⟩ := hmade v [] hv
  obtain ⟨hfalse, hafter⟩ : v.result = .ok false ∧ v.after = v.before := by
    obtain ⟨hfalse, hafter⟩ := Prod.mk.inj hfirst
    exact ⟨(Option.some.inj hfalse).symm, hafter.symm⟩
  have hbegan : v.before.now = 0 := hdue.unique .first
  have hended : v.check = ⟨0, 0⟩ := by rw [Visit.check, hafter, hbegan]
  have hnext : p.Due 0 (0 + p.timeout * 1000) (List.map Visit.check [v]) 20 := by
    rw [List.map_singleton, hended]
    have hunseen : ¬ p.interrupts.Unseen (p.cuts (0 + p.timeout * 1000) [⟨0, 0⟩]) 0 := by
      rintro ⟨u, hu, hle, -⟩
      obtain rfl : u = (20, true) := List.mem_singleton.mp hu
      simp at hle
    refine .sent hunseen (List.mem_singleton_self (20, true)) (by decide) (by decide) ?_
    intro u hu _
    obtain rfl : u = (20, true) := List.mem_singleton.mp hu
    exact Nat.le_refl _
  obtain ⟨hcut, -⟩ := hgoes v [] hv hfalse (by rw [hafter, hbegan]; decide)
  obtain ⟨hall, hresult, -, hnow⟩ := hcut 20 20 hnext rfl (by rw [hafter, hbegan]; decide)
  refine ⟨w', ?_, hnow⟩
  rw [hrun, ← hall, hresult, List.map_singleton, hended]
  rfl

end WaitPolicy

end Muster
