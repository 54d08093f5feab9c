import Mathlib.Data.List.Perm.Basic
import Muster.Proofs.Queue.Reachable

/-! The account that a queue keeps of its tasks: each is taken once, in order and with an entry of its
own, and every task that has been taken is active, unjoined or counted. -/

namespace Muster

variable {σ α : Type}

/-- The jobs that were handed out, in order, each with its entry. -/
def handed (events : List (Nat × Event)) : List (Nat × Nat) :=
  events.filterMap fun e =>
    match e.2 with
    | .handed job entry => some (job, entry)
    | _ => none

@[simp] theorem handed_append (es es' : List (Nat × Event)) :
    handed (es ++ es') = handed es ++ handed es' := List.filterMap_append

theorem handed_of_isWithin {entry : Nat} {es : List (Nat × Event)}
    (h : ∀ e ∈ es, e.2.isWithin entry = true) : handed es = [] := by
  refine List.filterMap_eq_nil_iff.mpr fun e he => ?_
  have hwithin := h e he
  cases hevent : e.2 <;> simp [hevent, Event.isWithin] at hwithin ⊢

def World.since (w w₀ : World σ) : List (Nat × Event) := w.events.drop w₀.events.length

theorem World.since_append {w₀ w w' : World σ} {es : List (Nat × Event)}
    (hw : w₀.events <+: w.events) (h : w'.events = w.events ++ es) :
    w₀.events <+: w'.events ∧ w'.since w₀ = w.since w₀ ++ es := by
  obtain ⟨es₀, hes₀⟩ := hw
  constructor
  · exact ⟨es₀ ++ es, by rw [h, ← hes₀, List.append_assoc]⟩
  · simp [since, h, ← hes₀]

theorem getElem?_concat {β : Type} {xs : List β} {x y : β} {i : Nat}
    (h : (xs ++ [x])[i]? = some y) : xs[i]? = some y ∨ i = xs.length ∧ y = x := by
  have hi := (List.getElem?_eq_some_iff.mp h).1
  simp only [List.length_append, List.length_singleton] at hi
  by_cases hlt : i < xs.length
  · rw [List.getElem?_append_left hlt] at h
    exact .inl h
  · obtain rfl : i = xs.length := by omega
    simp only [List.getElem?_concat_length, Option.some.injEq] at h
    exact .inr ⟨rfl, h.symm⟩

theorem getElem?_set_cases {β : Type} {xs : List β} {x y : β} {i j : Nat}
    (h : (xs.set i x)[j]? = some y) : (j = i ∧ y = x) ∨ (j ≠ i ∧ xs[j]? = some y) := by
  by_cases hij : i = j
  · subst hij
    rw [List.getElem?_set_self (by simpa using (List.getElem?_eq_some_iff.mp h).1)] at h
    exact .inl ⟨rfl, (Option.some.inj h).symm⟩
  · rw [List.getElem?_set_ne hij] at h
    exact .inr ⟨fun heq => hij heq.symm, h⟩

def Slot.isCrashed : Slot σ α → Bool
  | .ended none => true
  | _ => false

def Stats.joined (s : Stats) : Nat := s.completed + s.panicked

theorem Stats.joined_count (s : Stats) (crashed : Bool) :
    (s.count crashed).joined = s.joined + 1 := by
  cases crashed <;> simp only [count, joined, if_true, Bool.false_eq_true, if_false] <;> omega

theorem Stats.panicked_count (s : Stats) (crashed : Bool) :
    (s.count crashed).panicked = s.panicked + if crashed then 1 else 0 := by
  cases crashed <;> rfl

namespace Queue

/-- The account of a queue that began with the given limit, tasks and world. -/
structure Sound (m : Nat) (ps : List (Program α)) (w₀ : World σ) (q : Queue σ α) : Prop where
  limit : q.limit = m
  tasks : q.tasks = ps.drop q.slots.length
  started : q.slots.length ≤ ps.length
  entries : q.world.entries.length = w₀.entries.length + q.slots.length
  owns : ∀ (i : Nat) (s : Slot σ α), q.slots[i]? = some s → ∀ entry, s.entry? = some entry →
    entry = w₀.entries.length + i
  bound : q.taken ≤ max 1 m
  joined : q.taken + q.stats.joined = q.slots.length
  crashed : q.unjoined.countP id + q.stats.panicked = q.slots.countP Slot.isCrashed
  later : w₀.events <+: q.world.events
  calls : handed (q.world.since w₀) =
    (List.range q.slots.length).map fun i => (i, w₀.entries.length + i)

namespace Sound

variable {m : Nat} {ps : List (Program α)} {w₀ : World σ} {q q' : Queue σ α}

theorem start (m : Nat) (ps : List (Program α)) (w₀ : World σ) (display : Display) :
    Sound m ps w₀ (ofTasks m ps w₀ display) where
  limit := rfl
  tasks := rfl
  started := Nat.zero_le _
  entries := rfl
  owns i s h := by simp [ofTasks] at h
  bound := Nat.zero_le _
  joined := rfl
  crashed := rfl
  later := List.prefix_refl _
  calls := by simp [World.since, ofTasks, Muster.handed]

/-- The display and the time are not part of the account. -/
theorem aside (h : q.Sound m ps w₀) (display : Display) (nextRender now : Nat) :
    Sound m ps w₀ { q with display, nextRender, world := { q.world with now } } :=
  ⟨h.limit, h.tasks, h.started, h.entries, h.owns, h.bound, h.joined, h.crashed, h.later, h.calls⟩

theorem takeOn (h : q.Sound m ps w₀) (hroom : q.hasRoom = true) {p : Program α}
    {others : List (Program α)} (htasks : q.tasks = p :: others) :
    Sound m ps w₀ (q.takeOn p others) := by
  have hdrop : ps.drop q.slots.length = p :: others := by rw [← h.tasks, htasks]
  have htaken : (q.takeOn p others).taken = q.taken + 1 := by
    simp only [Queue.taken, active, Queue.takeOn, List.countP_append, List.countP_singleton,
      Slot.isActive, if_true]
    omega
  have hworld : (q.takeOn p others).world.events = q.world.events ++
      [(q.world.now, .handed q.slots.length q.world.entries.length)] :=
    World.events_record q.world _
  obtain ⟨hlater, hsince⟩ := World.since_append h.later hworld
  refine ⟨h.limit, ?_, ?_, ?_, ?_, ?_, ?_, ?_, hlater, ?_⟩
  · simp only [Queue.takeOn, List.length_append, List.length_singleton]
    rw [← List.tail_drop, hdrop, List.tail_cons]
  · have := congrArg List.length hdrop
    simp only [List.length_drop, List.length_cons] at this
    simp only [Queue.takeOn, List.length_append, List.length_singleton]
    omega
  · simp only [Queue.takeOn, List.length_append, List.length_singleton, h.entries]
    omega
  · intro i s hs entry hentry
    simp only [Queue.takeOn] at hs
    rcases getElem?_concat hs with hs | ⟨rfl, rfl⟩
    · exact h.owns i s hs entry hentry
    · simp only [Slot.entry?, Option.some.injEq] at hentry
      have := h.entries
      omega
  · have hlimit := h.limit
    simp only [Queue.hasRoom, Bool.and_eq_true, decide_eq_true_eq] at hroom
    omega
  · have := h.joined
    simp only [Queue.takeOn, List.length_append, List.length_singleton] at htaken ⊢
    omega
  · simpa [Queue.takeOn, Slot.isCrashed] using h.crashed
  · rw [hsince, handed_append, h.calls]
    simp [Queue.takeOn, List.range_succ, Muster.handed, h.entries]

theorem join (h : q.Sound m ps w₀) {k : Nat} {crashed : Bool}
    (hk : q.unjoined[k]? = some crashed) :
    Sound m ps w₀
      { q with unjoined := q.unjoined.eraseIdx k, stats := q.stats.count crashed } := by
  obtain ⟨hlt, hget⟩ := List.getElem?_eq_some_iff.mp hk
  have hlength : (q.unjoined.eraseIdx k).length + 1 = q.unjoined.length := by
    simp only [List.length_eraseIdx, hlt, if_true]
    omega
  have hperm : (crashed :: q.unjoined.eraseIdx k).Perm q.unjoined :=
    hget ▸ List.getElem_cons_eraseIdx_perm hlt
  have hcount := hperm.countP_eq id
  have hbound := h.bound
  have hjoined := h.joined
  have hcrashed := h.crashed
  refine ⟨h.limit, h.tasks, h.started, h.entries, h.owns, ?_, ?_, ?_, h.later, h.calls⟩
  · simp only [Queue.taken, active] at hbound ⊢
    omega
  · rw [Stats.joined_count]
    simp only [Queue.taken, active] at hjoined ⊢
    omega
  · rw [Stats.panicked_count]
    simp only [List.countP_cons, id] at hcount
    dsimp only
    omega

theorem owns_set (h : q.Sound m ps w₀) {i : Nat} {s s' : Slot σ α} (hs : q.slots[i]? = some s)
    (hentry : ∀ entry, s'.entry? = some entry → s.entry? = some entry) :
    ∀ (j : Nat) (t : Slot σ α), (q.slots.set i s')[j]? = some t → ∀ entry,
      t.entry? = some entry → entry = w₀.entries.length + j := by
  intro j t ht entry he
  rcases getElem?_set_cases ht with ⟨rfl, rfl⟩ | ⟨_, ht⟩
  · exact h.owns j s hs entry (hentry entry he)
  · exact h.owns j t ht entry he

theorem turn (h : q.Sound m ps w₀) {i : Nat} (hturn : Turn i q q') : q'.Sound m ps w₀ := by
  have htaken := hturn.taken
  have hbound := h.bound
  have hjoined := h.joined
  have hcrashed := h.crashed
  cases hturn with
  | @goesOn s s' entry turn made w hs he he' _ htouches =>
    obtain ⟨es, hes, hwithin, -⟩ := htouches.events
    obtain ⟨hlater, hsince⟩ := World.since_append h.later hes
    refine ⟨h.limit, ?_, ?_, ?_, ?_, ?_, ?_, ?_, hlater, ?_⟩
    · simpa using h.tasks
    · simpa using h.started
    · simpa using htouches.length.trans h.entries
    · exact h.owns_set hs fun entry' hentry' => by rw [he, ← he', hentry']
    · omega
    · simp only [List.length_set]
      omega
    · have := countP_set Slot.isCrashed hs s'
      have hnot : ∀ t : Slot σ α, t.entry? = some entry → t.isCrashed = false := by
        intro t ht
        cases t <;> simp [Slot.entry?, Slot.isCrashed] at ht ⊢
      rw [hnot s he, hnot s' he'] at this
      dsimp only
      omega
    · simp only [List.length_set]
      rw [hsince, handed_append, handed_of_isWithin hwithin, h.calls, List.append_nil]
  | @ends s entry a? made w hs he _ htouches =>
    obtain ⟨es, hes, hwithin, -⟩ := htouches.events
    obtain ⟨hlater, hsince⟩ := World.since_append h.later
      ((events_close q i entry a? w).trans (by rw [hes, List.append_assoc]))
    have hnone : handed [(w.now, closing i a?)] = [] := by cases a? <;> rfl
    refine ⟨h.limit, ?_, ?_, ?_, ?_, ?_, ?_, ?_, hlater, ?_⟩
    · simpa [close] using h.tasks
    · simpa [close] using h.started
    · simpa [close, World.changeEntry, World.record] using htouches.length.trans h.entries
    · exact h.owns_set hs fun entry' hentry' => by simp [Slot.entry?] at hentry'
    · omega
    · rw [htaken]
      simpa only [close, List.length_set] using hjoined
    · have hcount := countP_set Slot.isCrashed hs (.ended a?)
      have hnot : s.isCrashed = false := by
        cases s <;> simp [Slot.entry?, Slot.isCrashed] at he ⊢
      have hend : (Slot.ended a? : Slot σ α).isCrashed = a?.isNone := by cases a? <;> rfl
      rw [hnot, hend] at hcount
      simp only [close, List.countP_append, List.countP_singleton, id]
      simp only [Bool.false_eq_true, if_false] at hcount
      omega
    · simp only [close, List.length_set] at hsince ⊢
      rw [hsince, handed_append, handed_append, handed_of_isWithin hwithin, hnone, h.calls]
      simp

theorem move (h : q.Sound m ps w₀) (hmove : q.Move q') : q'.Sound m ps w₀ := by
  cases hmove with
  | same => exact h
  | takeOn hroom htasks => exact h.takeOn hroom htasks
  | join hk => exact h.join hk
  | render => exact h.aside _ q.nextRender q.world.now
  | tick => exact h.aside _ _ q.world.now
  | turn hturn => exact h.turn hturn
  | pass time => exact h.aside q.display q.nextRender _

end Sound

end Queue

end Muster
