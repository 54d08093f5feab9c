import Mathlib.Data.List.GetD
import Muster.Proofs.Progress.Entry
import Muster.Queue.Schedule

/-! What a task does to a queue when it goes on: it touches the world in its own way, and either it stays
active or it is closed. -/

namespace Muster

variable {σ α : Type}

/-- What happens in a task with the given entry, other than its end. -/
def Event.isWithin (entry : Nat) : Event → Bool
  | .called _ => true
  | .entered _ => true
  | .invoked own? _ => own? == some entry
  | .began _ => true
  | .handed _ _ => false
  | .ended _ => false
  | .crashed _ => false

def invocations (entry : Nat) (events : List (Nat × Event)) : List String :=
  events.filterMap fun e =>
    match e.2 with
    | .invoked own? value => if own? = some entry then some value else none
    | _ => none

def Effect.invocations : Effect → List String
  | .invoke value => [value]
  | _ => []

def Effect.mayWait : Effect → Bool
  | .call _ => true
  | .sleepUntil _ => true
  | _ => false

theorem Effect.invocations_of_mayWait {e : Effect} (h : e.mayWait = true) : e.invocations = [] := by
  cases e with
  | invoke => simp [mayWait] at h
  | _ => rfl

/-- What may be left of a program after some effects, which called the action on the given values. -/
inductive Program.Path (p₀ : Program α) : List String → Program α → Prop where
  | start : Path p₀ [] p₀
  | next {made : List String} {e : Effect} {next : e.Answer → Program α} (a : e.Answer) :
    Path p₀ made (.act e next) → Path p₀ (made ++ e.invocations) (next a)

def Program.MayCrash (p : Program α) : Prop :=
  p = .crash ∨ ∃ (e : Effect) (next : e.Answer → Program α), p = .act e next ∧ e.mayWait = true

namespace Slot

def entry? : Slot σ α → Option Nat
  | .ready _ _ entry _ => some entry
  | .running entry _ => some entry
  | .waiting _ _ entry _ => some entry
  | .ended _ => none

/-- A task is on a path through its program that called the action on the given values. -/
def On (p₀ : Program α) (made : List String) : Slot σ α → Prop
  | .ready _ _ _ p => p₀.Path made p
  | .running _ p => p₀.Path made p
  | .waiting _ _ _ s => p₀.Path made s.program ∧ s.effect.mayWait = true
  | .ended (some a) => p₀.Path made (.done a)
  | .ended none => ∃ p, p₀.Path made p ∧ p.MayCrash

theorem ended_of_isActive {s : Slot σ α} (h : s.isActive = false) : ∃ a?, s = .ended a? := by
  cases s with
  | ended a? => exact ⟨a?, rfl⟩
  | _ => simp [isActive] at h

theorem isActive_iff {s : Slot σ α} : s.isActive = true ↔ ∃ entry, s.entry? = some entry := by
  cases s <;> simp [isActive, entry?]

end Slot

@[simp] theorem invocations_append (entry : Nat) (es es' : List (Nat × Event)) :
    invocations entry (es ++ es') = invocations entry es ++ invocations entry es' :=
  List.filterMap_append

/-- What a task does to the world that calls its action on the given values. -/
structure World.Touches (entry : Nat) (made : List String) (w w' : World σ) : Prop where
  entries : Progress.Entry.AllPrecede w.entries w'.entries
  length : w'.entries.length = w.entries.length
  events : ∃ es, w'.events = w.events ++ es ∧ (∀ e ∈ es, e.2.isWithin entry = true) ∧
    invocations entry es = made

namespace World

variable {w : World σ} {entry : Nat}

@[simp] theorem events_record (w : World σ) (e : Event) :
    (w.record e).events = w.events ++ [(w.now, e)] := by
  simp [events, record]

theorem Touches.refl (w : World σ) : w.Touches entry [] w :=
  ⟨.refl _, rfl, [], by simp, by simp, rfl⟩

theorem Touches.withState (w : World σ) (state : σ) :
    w.Touches entry [] { w with state } := ⟨.refl _, rfl, [], (List.append_nil _).symm, by simp, rfl⟩

theorem Touches.record {e : Event} (w : World σ) (h : e.isWithin entry = true) :
    w.Touches entry (invocations entry [(w.now, e)]) (w.record e) :=
  ⟨.refl _, rfl, [(w.now, e)], by simp, by simpa using h, rfl⟩

theorem Touches.change (w : World σ) (c : Progress.Change) :
    w.Touches entry [] (w.changeEntry entry c) :=
  ⟨Progress.Entry.allPrecede_modify _ _ _ _, by simp [changeEntry], [], (List.append_nil _).symm,
    by simp, rfl⟩

theorem Touches.trans {w w₁ w₂ : World σ} {made made' : List String}
    (h : w.Touches entry made w₁) (h' : w₁.Touches entry made' w₂) :
    w.Touches entry (made ++ made') w₂ := by
  obtain ⟨es, hes, hwithin, hmade⟩ := h.events
  obtain ⟨es', hes', hwithin', hmade'⟩ := h'.events
  refine ⟨h.entries.trans h'.entries, h'.length.trans h.length, es ++ es', ?_, ?_, ?_⟩
  · rw [hes', hes, List.append_assoc]
  · intro e he
    exact (List.mem_append.mp he).elim (hwithin e) (hwithin' e)
  · rw [invocations_append, hmade, hmade']

theorem touches_of_answered {b : Backend σ} {e : Effect} {a : e.Answer} {w w' : World σ}
    (h : w.begin b (some entry) e = .answered a w') : w.Touches entry e.invocations w' := by
  cases e with
  | clock =>
    cases h
    exact .refl w
  | sleepUntil time =>
    simp only [begin] at h
    split at h
    · cases h
      exact .refl w
    · simp at h
  | call c =>
    simp only [begin] at h
    split at h
    · split at h
      · cases h
        exact (Touches.record w (e := .called c) rfl).trans (.withState _ _)
      · simp at h
    · simp at h
  | change c =>
    cases h
    exact .change w c
  | hasEnded =>
    cases h
    exact .refl w
  | enter arg =>
    cases h
    exact Touches.record w (e := .entered arg) rfl
  | invoke value =>
    cases h
    have hwithin : (Event.invoked (some entry) value).isWithin entry = true := by
      simp [Event.isWithin]
    simpa [invocations, Effect.invocations] using Touches.record w hwithin

theorem touches_of_crashed {b : Backend σ} {e : Effect} {w w' : World σ}
    (h : w.begin b (some entry) e = .crashed w') :
    w.Touches entry [] w' ∧ e.mayWait = true := by
  cases e with
  | call c =>
    simp only [begin] at h
    split at h
    · split at h
      · simp at h
      · cases h
        exact ⟨(Touches.record w (e := .called c) rfl).trans (.withState _ _), rfl⟩
    · simp at h
  | sleepUntil time =>
    simp only [begin] at h
    split at h <;> simp at h
  | _ => simp [begin] at h

theorem touches_of_later {b : Backend σ} {e : Effect} {time : Nat}
    {finish : Nat → σ → Option e.Answer × σ} {w w' : World σ}
    (h : w.begin b (some entry) e = .later time finish w') :
    w.Touches entry [] w' ∧ e.mayWait = true := by
  cases e with
  | call c =>
    simp only [begin] at h
    split at h
    · split at h <;> simp at h
    · cases h
      exact ⟨(Touches.record w (e := .called c) rfl).trans (.withState _ _), rfl⟩
  | sleepUntil t =>
    simp only [begin] at h
    split at h
    · simp at h
    · cases h
      exact ⟨.refl w, rfl⟩
  | _ => simp [begin] at h

end World

namespace Queue

theorem events_close (q : Queue σ α) (i entry : Nat) (a? : Option α) (w : World σ) :
    (q.close i entry a? w).world.events = w.events ++ [(w.now, closing i a?)] :=
  World.events_record w _

/-- What comes of a task that goes on: it is active as before, or it is closed. Either way it stays on
a path through its program and touches the world. -/
inductive Turn (i : Nat) (q : Queue σ α) : Queue σ α → Prop where
  | goesOn {s s' : Slot σ α} {entry turn : Nat} {made : List String} {w : World σ} :
    q.slots[i]? = some s → s.entry? = some entry → s'.entry? = some entry →
    (∀ p₀ ns, s.On p₀ ns → s'.On p₀ (ns ++ made)) → q.world.Touches entry made w →
    Turn i q { q with slots := q.slots.set i s', world := w, turn }
  | ends {s : Slot σ α} {entry : Nat} {a? : Option α} {made : List String} {w : World σ} :
    q.slots[i]? = some s → s.entry? = some entry →
    (∀ p₀ ns, s.On p₀ ns → (Slot.ended a? : Slot σ α).On p₀ (ns ++ made)) →
    q.world.Touches entry made w → Turn i q (q.close i entry a? w)

theorem turn_enter {q q' : Queue σ α} {i : Nat} (h : q.enter i = some q') :
    q' = q ∨ Turn i q q' := by
  unfold enter at h
  split at h
  · rename_i entry p hs
    cases h
    refine .inr (.goesOn hs rfl rfl (fun p₀ ns hon => ?_) (World.Touches.record q.world rfl))
    simpa [Slot.On, invocations] using hon
  · cases h
    exact .inl rfl
  · rename_i entry s hs
    right
    split at h
    · rename_i a state _
      cases h
      refine .goesOn hs rfl rfl (fun p₀ ns hon => ?_) (.withState q.world state)
      have hpath := Program.Path.next a hon.1
      rwa [Effect.invocations_of_mayWait hon.2] at hpath
    · rename_i state _
      cases h
      refine .ends hs rfl (fun p₀ ns hon => ?_) (.withState q.world state)
      exact ⟨s.program, by simpa using hon.1, .inr ⟨s.effect, s.next, rfl, hon.2⟩⟩
  · simp at h

theorem turn_act {b : Backend σ} {q q' : Queue σ α} {i : Nat} (h : q.act b i = some q') :
    Turn i q q' := by
  unfold act at h
  split at h
  · rename_i entry a hs
    cases h
    change Turn i q (q.close i entry (some a) q.world)
    exact .ends hs rfl (fun p₀ ns hon => by simpa [Slot.On] using hon) (.refl q.world)
  · rename_i entry hs
    cases h
    change Turn i q (q.close i entry none q.world)
    exact .ends hs rfl (fun p₀ ns hon => ⟨.crash, by simpa [Slot.On] using hon, .inl rfl⟩)
      (.refl q.world)
  · rename_i entry e next hs
    split at h
    · rename_i a w hbegin
      cases h
      exact .goesOn hs rfl rfl (fun p₀ ns hon => .next a hon) (World.touches_of_answered hbegin)
    · rename_i w hbegin
      cases h
      change Turn i q (q.close i entry none w)
      obtain ⟨htouches, hwait⟩ := World.touches_of_crashed hbegin
      refine .ends hs rfl (fun p₀ ns hon => ⟨.act e next, ?_, .inr ⟨e, next, rfl, hwait⟩⟩)
        htouches
      simpa [Slot.On] using hon
    · rename_i time finish w hbegin
      cases h
      obtain ⟨htouches, hwait⟩ := World.touches_of_later hbegin
      refine .goesOn hs rfl rfl (fun p₀ ns hon => ⟨?_, hwait⟩) htouches
      simpa [Slot.On, Suspension.program] using hon
  · simp at h

theorem countP_set {β : Type} {xs : List β} {i : Nat} {x : β} (P : β → Bool) (h : xs[i]? = some x)
    (y : β) :
    (xs.set i y).countP P + (if P x then 1 else 0) = xs.countP P + if P y then 1 else 0 := by
  obtain ⟨hi, rfl⟩ := List.getElem?_eq_some_iff.mp h
  have hpos : P xs[i] = true → 0 < xs.countP P := fun hp =>
    List.countP_pos_iff.mpr ⟨xs[i], List.getElem_mem hi, hp⟩
  rw [List.countP_set hi]
  split
  · rename_i hp
    have := hpos hp
    omega
  · omega

namespace Turn

variable {q q' : Queue σ α} {i : Nat}

theorem taken (h : Turn i q q') : q'.taken = q.taken := by
  cases h with
  | @goesOn s s' entry turn made w hs he he' _ _ =>
    have := countP_set Slot.isActive hs s'
    rw [Slot.isActive_iff.mpr ⟨_, he⟩, Slot.isActive_iff.mpr ⟨_, he'⟩] at this
    simp only [Queue.taken, active]
    omega
  | @ends s entry a? made w hs he _ _ =>
    have := countP_set Slot.isActive hs (.ended a?)
    rw [Slot.isActive_iff.mpr ⟨_, he⟩] at this
    simp only [Slot.isActive, if_true, Bool.false_eq_true, if_false] at this
    simp only [Queue.taken, active, close, List.length_append, List.length_singleton]
    omega

theorem hasRoom (h : Turn i q q') : q'.hasRoom = q.hasRoom := by
  have htaken := h.taken
  cases h with
  | goesOn =>
    simp only [Queue.hasRoom, htaken]
  | ends =>
    simp only [Queue.hasRoom, htaken]
    rfl

end Turn

inductive Move (q : Queue σ α) : Queue σ α → Prop where
  | same : Move q q
  | takeOn {p : Program α} {others : List (Program α)} :
    q.hasRoom = true → q.tasks = p :: others → Move q (q.takeOn p others)
  | join {k : Nat} {crashed : Bool} : q.unjoined[k]? = some crashed →
    Move q { q with unjoined := q.unjoined.eraseIdx k, stats := q.stats.count crashed }
  | render : Move q q.render
  | tick : Move q q.tick
  | turn {i : Nat} {q' : Queue σ α} : Turn i q q' → Move q q'
  | pass (time : Nat) : Move q (q.waitUntil time)

end Queue

/-- What a choice comes to: a task goes on, or the queue moves and no task does. -/
theorem Running.cases_of_choose {b : Backend σ} {r r' : Running σ α} {c : Choice}
    (h : r.choose b c = some r') :
    (∃ i, c = .enter i ∧ r.queue.enter i = some r'.queue) ∨
    (∃ i, c = .act i ∧ r.queue.act b i = some r'.queue) ∨
    (∀ i, c ≠ .enter i ∧ c ≠ .act i) ∧ r.queue.Move r'.queue ∧
      (r'.queue.slots = r.queue.slots ∧ r'.queue.world.entries = r.queue.world.entries ∧
        r'.queue.world.journal = r.queue.world.journal ∨
        ∃ p others, r.queue.hasRoom = true ∧ r.queue.tasks = p :: others ∧
          r'.queue = r.queue.takeOn p others) := by
  cases c with
  | proceed =>
    refine .inr (.inr ⟨by simp, ?_⟩)
    simp only [choose, proceed] at h
    split at h
    · split at h
      · rename_i hroom
        obtain ⟨q', hspawn, rfl⟩ := Option.map_eq_some_iff.mp h
        unfold Queue.spawn at hspawn
        split at hspawn
        · simp at hspawn
        · rename_i htasks
          cases hspawn
          exact ⟨.takeOn hroom htasks, .inr ⟨_, _, hroom, htasks, rfl⟩⟩
      · cases h
        exact ⟨.same, .inl ⟨rfl, rfl, rfl⟩⟩
    · cases h
      exact ⟨.render, .inl ⟨rfl, rfl, rfl⟩⟩
    · cases h
      simp only [Queue.renderOpen]
      split
      · exact ⟨.render, .inl ⟨rfl, rfl, rfl⟩⟩
      · exact ⟨.same, .inl ⟨rfl, rfl, rfl⟩⟩
    · simp at h
    · simp at h
  | join k =>
    refine .inr (.inr ⟨by simp, ?_⟩)
    simp only [choose] at h
    split at h
    · obtain ⟨q', hjoin, rfl⟩ := Option.map_eq_some_iff.mp h
      unfold Queue.join at hjoin
      split at hjoin
      · simp at hjoin
      · rename_i hk
        cases hjoin
        exact ⟨.join hk, .inl ⟨rfl, rfl, rfl⟩⟩
    · simp at h
  | tick =>
    refine .inr (.inr ⟨by simp, ?_⟩)
    simp only [choose] at h
    split at h
    · cases h
      exact ⟨.tick, .inl ⟨rfl, rfl, rfl⟩⟩
    · simp at h
  | enter i =>
    simp only [choose] at h
    split at h
    · obtain ⟨q', henter, rfl⟩ := Option.map_eq_some_iff.mp h
      exact .inl ⟨i, rfl, henter⟩
    · simp at h
  | act i =>
    obtain ⟨q', hact, rfl⟩ := Option.map_eq_some_iff.mp h
    exact .inr (.inl ⟨i, rfl, hact⟩)
  | pass time =>
    cases h
    exact .inr (.inr ⟨by simp, .pass time, .inl ⟨rfl, rfl, rfl⟩⟩)

theorem Running.move_of_choose {b : Backend σ} {r r' : Running σ α} {c : Choice}
    (h : r.choose b c = some r') : r.queue.Move r'.queue := by
  rcases cases_of_choose h with ⟨i, -, henter⟩ | ⟨i, -, hact⟩ | ⟨-, hmove, -⟩
  · rcases Queue.turn_enter henter with hsame | hturn
    · exact hsame ▸ .same
    · exact .turn hturn
  · exact .turn (Queue.turn_act hact)
  · exact hmove

end Muster
