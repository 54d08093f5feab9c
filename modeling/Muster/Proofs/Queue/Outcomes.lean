import Muster.Proofs.Queue.Placed

/-! What a queue tells of its tasks: the values that each called its action on, and the results of those
that ended, in the order in which they did. -/

namespace Muster

variable {σ α : Type}

def endedJobs (events : List (Nat × Event)) : List Nat :=
  events.filterMap fun e =>
    match e.2 with
    | .ended job => some job
    | _ => none

@[simp] theorem endedJobs_append (es es' : List (Nat × Event)) :
    endedJobs (es ++ es') = endedJobs es ++ endedJobs es' := List.filterMap_append

theorem endedJobs_of_isWithin {entry : Nat} {es : List (Nat × Event)}
    (h : ∀ e ∈ es, e.2.isWithin entry = true) : endedJobs es = [] := by
  refine List.filterMap_eq_nil_iff.mpr fun e he => ?_
  have hwithin := h e he
  cases hevent : e.2 <;> simp [hevent, Event.isWithin] at hwithin ⊢

theorem invocations_of_other {entry other : Nat} (hne : other ≠ entry) {es : List (Nat × Event)}
    (h : ∀ e ∈ es, e.2.isWithin entry = true) : invocations other es = [] := by
  refine List.filterMap_eq_nil_iff.mpr fun e he => ?_
  have hwithin := h e he
  cases hevent : e.2 with
  | invoked own? value =>
    obtain rfl : own? = some entry := by simpa [hevent, Event.isWithin] using hwithin
    simp [Ne.symm hne]
  | _ => rfl

namespace Queue

/-- Each task is on a path through its program that called the action as often as it did, and each result
is that of a task that ended. -/
structure Told (ps : List (Program α)) (w₀ : World σ) (q : Queue σ α) : Prop where
  path : ∀ (i : Nat) (s : Slot σ α) (p : Program α), q.slots[i]? = some s → ps[i]? = some p →
    s.On p (invocations (w₀.entries.length + i) (q.world.since w₀))
  fresh : ∀ i, q.slots.length ≤ i → invocations (w₀.entries.length + i) (q.world.since w₀) = []
  results : ∀ (i : Nat) (a? : Option α),
    (i, a?) ∈ q.results ↔ q.slots[i]? = some (.ended a?)
  nodup : (q.results.map Prod.fst).Nodup
  ended : (q.results.filterMap fun r => r.2.map fun _ => r.1) = endedJobs (q.world.since w₀)

namespace Told

variable {m : Nat} {ps : List (Program α)} {w₀ : World σ} {q q' : Queue σ α}

theorem start (m : Nat) (ps : List (Program α)) (w₀ : World σ) (display : Display) :
    Told ps w₀ (ofTasks m ps w₀ display) where
  path i s p hs := by simp [ofTasks] at hs
  fresh i _ := by simp [ofTasks, World.since, invocations]
  results i a? := by simp [ofTasks]
  nodup := by simp [ofTasks]
  ended := by simp [ofTasks, World.since, endedJobs]

theorem takeOn (h : q.Told ps w₀) (hsound : q.Sound m ps w₀) {p : Program α}
    {others : List (Program α)} (htasks : q.tasks = p :: others) :
    Told ps w₀ (q.takeOn p others) := by
  have hworld : (q.takeOn p others).world.events = q.world.events ++
      [(q.world.now, .handed q.slots.length q.world.entries.length)] :=
    World.events_record q.world _
  obtain ⟨-, hsince⟩ := World.since_append hsound.later hworld
  have hinvokes : ∀ entry, invocations entry ((q.takeOn p others).world.since w₀) =
      invocations entry (q.world.since w₀) := by
    intro entry
    rw [hsince, invocations_append]
    exact List.append_nil _
  have hp : ps[q.slots.length]? = some p := by
    have hdrop : ps.drop q.slots.length = p :: others := by rw [← hsound.tasks, htasks]
    have hfirst : (ps.drop q.slots.length)[0]? = some p := by rw [hdrop, List.getElem?_cons_zero]
    rwa [List.getElem?_drop, Nat.add_zero] at hfirst
  refine ⟨?_, ?_, ?_, h.nodup, ?_⟩
  · intro i s p' hs hp'
    rw [hinvokes]
    rcases getElem?_concat hs with hs | ⟨rfl, rfl⟩
    · exact h.path i s p' hs hp'
    · rw [h.fresh _ (Nat.le_refl _)]
      obtain rfl : p = p' := Option.some.inj (hp.symm.trans hp')
      exact .start
  · intro i hi
    simp only [Queue.takeOn, List.length_append, List.length_singleton] at hi
    rw [hinvokes]
    exact h.fresh i (by omega)
  · intro i a?
    refine (h.results i a?).trans ⟨fun hs => ?_, fun hs => ?_⟩
    · have hlt := (List.getElem?_eq_some_iff.mp hs).1
      simpa only [Queue.takeOn, List.getElem?_append_left hlt] using hs
    · rcases getElem?_concat hs with hs | ⟨_, hend⟩
      · exact hs
      · simp at hend
  · rw [hsince, endedJobs_append, ← h.ended]
    exact (List.append_nil _).symm

theorem path_set (h : q.Told ps w₀) (hsound : q.Sound m ps w₀) {i entry : Nat} {s s' : Slot σ α}
    {made : List String} {es es' : List (Nat × Event)} (hs : q.slots[i]? = some s)
    (hentry : s.entry? = some entry) (hon : ∀ p ns, s.On p ns → s'.On p (ns ++ made))
    (hwithin : ∀ e ∈ es, e.2.isWithin entry = true) (hmade : invocations entry es = made)
    (hes : ∀ other, invocations other es' = invocations other es) :
    (∀ (j : Nat) (t : Slot σ α) (p : Program α), (q.slots.set i s')[j]? = some t →
      ps[j]? = some p →
      t.On p (invocations (w₀.entries.length + j) (q.world.since w₀ ++ es'))) ∧
    ∀ j, q.slots.length ≤ j → invocations (w₀.entries.length + j) (q.world.since w₀ ++ es') = [] := by
  have hown := hsound.owns i s hs entry hentry
  have hother : ∀ j, j ≠ i → invocations (w₀.entries.length + j) (q.world.since w₀ ++ es') =
      invocations (w₀.entries.length + j) (q.world.since w₀) := by
    intro j hj
    rw [invocations_append, hes, invocations_of_other (by omega) hwithin, List.append_nil]
  constructor
  · intro j t p ht hp
    rcases getElem?_set_cases ht with ⟨rfl, rfl⟩ | ⟨hj, ht⟩
    · rw [invocations_append, hes, ← hown, hmade, hown]
      exact hon p _ (h.path j s p hs hp)
    · rw [hother j hj]
      exact h.path j t p ht hp
  · intro j hj
    have hlt := (List.getElem?_eq_some_iff.mp hs).1
    rw [hother j (by omega)]
    exact h.fresh j hj

theorem turn (h : q.Told ps w₀) (hsound : q.Sound m ps w₀) {i : Nat} (hturn : Turn i q q') :
    q'.Told ps w₀ := by
  cases hturn with
  | @goesOn s s' entry turn made w hs he he' hon htouches =>
    obtain ⟨es, hes, hwithin, hmade⟩ := htouches.events
    obtain ⟨-, hsince⟩ := World.since_append hsound.later hes
    obtain ⟨hpath, hfresh⟩ := h.path_set hsound hs he hon hwithin hmade fun _ => rfl
    refine ⟨by simpa only [hsince] using hpath, by simpa [hsince] using hfresh, ?_, h.nodup, ?_⟩
    · intro j a?
      refine (h.results j a?).trans ⟨fun hj => ?_, fun hj => ?_⟩
      · have hne : i ≠ j := by
          rintro rfl
          rw [hs] at hj
          cases hj
          simp [Slot.entry?] at he
        simpa only [List.getElem?_set_ne hne] using hj
      · rcases getElem?_set_cases hj with ⟨_, rfl⟩ | ⟨_, hj⟩
        · simp [Slot.entry?] at he'
        · exact hj
    · rw [hsince, endedJobs_append, endedJobs_of_isWithin hwithin, List.append_nil]
      exact h.ended
  | @ends s entry a? made w hs he hon htouches =>
    obtain ⟨es, hes, hwithin, hmade⟩ := htouches.events
    obtain ⟨-, hsince⟩ := World.since_append hsound.later
      ((events_close q i entry a? w).trans (by rw [hes, List.append_assoc]))
    have hclosing : ∀ other,
        invocations other (es ++ [(w.now, closing i a?)]) = invocations other es := by
      intro other
      rw [invocations_append]
      cases a? <;> exact List.append_nil _
    obtain ⟨hpath, hfresh⟩ := h.path_set hsound hs he hon hwithin hmade hclosing
    have hlt := (List.getElem?_eq_some_iff.mp hs).1
    have hnew : ∀ a?', (i, a?') ∉ q.results := by
      intro a?' hmem
      have := (h.results i a?').mp hmem
      rw [hs] at this
      cases this
      simp [Slot.entry?] at he
    refine ⟨by rw [hsince]; exact hpath, ?_, ?_, ?_, ?_⟩
    · rw [hsince]
      simpa only [close, List.length_set] using hfresh
    · intro j a?'
      simp only [close, List.mem_append, List.mem_singleton, Prod.mk.injEq]
      constructor
      · rintro (hmem | ⟨rfl, rfl⟩)
        · have hj := (h.results j a?').mp hmem
          have hne : i ≠ j := by
            rintro rfl
            exact hnew a?' hmem
          rwa [List.getElem?_set_ne hne]
        · exact List.getElem?_set_self hlt
      · intro hj
        rcases getElem?_set_cases hj with ⟨rfl, hend⟩ | ⟨_, hj⟩
        · exact .inr ⟨rfl, by simpa using hend⟩
        · exact .inl ((h.results j a?').mpr hj)
    · simp only [close, List.map_append, List.map_singleton]
      refine List.nodup_append.mpr ⟨h.nodup, List.nodup_singleton i, ?_⟩
      rintro j hj _ hi rfl
      obtain rfl := List.mem_singleton.mp hi
      obtain ⟨⟨_, a?'⟩, hmem, rfl⟩ := List.mem_map.mp hj
      exact hnew a?' hmem
    · rw [hsince, endedJobs_append, endedJobs_append, endedJobs_of_isWithin hwithin, ← h.ended]
      cases a? <;> simp [close, closing, endedJobs]

theorem move (h : q.Told ps w₀) (hsound : q.Sound m ps w₀) (hmove : q.Move q') :
    q'.Told ps w₀ := by
  cases hmove with
  | takeOn _ htasks => exact h.takeOn hsound htasks
  | turn hturn => exact h.turn hsound hturn
  | _ => exact ⟨h.path, h.fresh, h.results, h.nodup, h.ended⟩

theorem of_reachable {b : Backend σ} {display : Display} {r : Running σ α}
    (h : Running.Reachable b (.start m ps w₀ display) r) : r.queue.Told ps w₀ := by
  induction h with
  | refl => exact .start m ps w₀ display
  | tail h hstep ih =>
    obtain ⟨c, hc⟩ := hstep
    exact ih.move (Running.sound_of_reachable h) (Running.move_of_choose hc)

end Told

end Queue

end Muster
