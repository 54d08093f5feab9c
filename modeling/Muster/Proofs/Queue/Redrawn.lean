import Mathlib.Data.Option.Basic
import Muster.Queue.Schedule

/-! Queues that show different things. Main statements: however the display of a queue is set up, and
whatever happens to it on the way, the queue goes on in the same way, in the run that takes tasks in the
order of their times as in every other. -/

namespace Muster

variable {σ α : Type}

section Related

variable {β γ β' γ' : Type} {R : β → γ → Prop} {x : Option β} {y : Option γ}

theorem none_of_rel (h : Option.Rel R x y) (hx : x = none) : y = none := by
  cases h with
  | none => rfl
  | some => simp at hx

theorem some_of_rel {a : β} (h : Option.Rel R x y) (hx : x = some a) :
    ∃ a', y = some a' ∧ R a a' := by
  cases h with
  | none => simp at hx
  | some h =>
    cases hx
    exact ⟨_, rfl, h⟩

theorem rel_map {S : β' → γ' → Prop} {f : β → β'} {g : γ → γ'} (h : Option.Rel R x y)
    (hfg : ∀ a a', R a a' → S (f a) (g a')) : Option.Rel S (x.map f) (y.map g) := by
  cases h with
  | none => exact .none
  | some h => exact .some (hfg _ _ h)

end Related

namespace Queue

def redraw (q : Queue σ α) (d : Display) : Queue σ α := { q with display := d }

/-- Two queues that differ in their displays at most. -/
def Alike (q q' : Queue σ α) : Prop := ∃ d, q' = q.redraw d

variable {b : Backend σ} {q q' : Queue σ α}

theorem Alike.trans {q'' : Queue σ α} (h : q.Alike q') (h' : q'.Alike q'') : q.Alike q'' := by
  obtain ⟨d, rfl⟩ := h
  obtain ⟨d', rfl⟩ := h'
  exact ⟨d', rfl⟩

theorem Alike.symm (h : q.Alike q') : q'.Alike q := by
  obtain ⟨d, rfl⟩ := h
  exact ⟨q.display, rfl⟩

theorem Alike.world (h : q.Alike q') : q'.world = q.world := by
  obtain ⟨d, rfl⟩ := h
  rfl

theorem Alike.results (h : q.Alike q') : q'.results = q.results := by
  obtain ⟨d, rfl⟩ := h
  rfl

theorem rel_redraw (x : Option (Queue σ α)) (d : Display) :
    Option.Rel Alike x (x.map (·.redraw d)) := by
  cases x with
  | none => exact .none
  | some q => exact .some ⟨d, rfl⟩

theorem Alike.nextRender (h : q.Alike q') : q'.nextRender = q.nextRender := by
  obtain ⟨d, rfl⟩ := h
  rfl

theorem Alike.hasRoom (h : q.Alike q') : q'.hasRoom = q.hasRoom := by
  obtain ⟨d, rfl⟩ := h
  rfl

section Exact

variable (q : Queue σ α) (d : Display)

theorem join_redraw (k : Nat) : (q.redraw d).join k = (q.join k).map (·.redraw d) := by
  cases hk : q.unjoined[k]? <;> simp [join, redraw, hk]

theorem settle_redraw (i entry : Nat) (halt : Halt σ α × World σ) :
    (q.redraw d).settle i entry halt = (q.settle i entry halt).redraw d := by
  obtain ⟨_ | _ | _, w⟩ := halt <;> rfl

theorem enter_redraw (i : Nat) : (q.redraw d).enter i = (q.enter i).map (·.redraw d) := by
  cases hs : q.slots[i]? with
  | none => simp [enter, redraw, hs]
  | some s =>
    cases s with
    | ready => simp [enter, redraw, hs]
    | running => simp [enter, redraw, hs]
    | ended => simp [enter, redraw, hs]
    | waiting wake turn entry s =>
      rcases hfinish : s.finish q.world.now q.world.state with ⟨_ | a, state⟩
      · simp [enter, redraw, hs, hfinish, close]
      · simp [enter, redraw, hs, hfinish]

theorem act_redraw (b : Backend σ) (i : Nat) :
    (q.redraw d).act b i = (q.act b i).map (·.redraw d) := by
  have hsettle := settle_redraw q d i
  cases hs : q.slots[i]? with
  | none => simp [act, redraw, hs]
  | some s =>
    cases s with
    | ready => simp [act, redraw, hs]
    | waiting => simp [act, redraw, hs]
    | ended => simp [act, redraw, hs]
    | running entry p =>
      cases p with
      | done a => simpa [act, redraw, hs] using hsettle entry (.ended a, q.world)
      | crash => simpa [act, redraw, hs] using hsettle entry (.crashed, q.world)
      | act e next =>
        cases hbegin : q.world.begin b (some entry) e with
        | answered a w => simp [act, redraw, hs, hbegin]
        | crashed w => simpa [act, redraw, hs, hbegin] using hsettle entry (.crashed, w)
        | later time finish w =>
          simpa [act, redraw, hs, hbegin] using
            hsettle entry (.suspended time ⟨e, finish, next⟩, w)

theorem carryOn_redraw (b : Backend σ) (i : Nat) :
    (q.redraw d).carryOn b i = (q.carryOn b i).redraw d := by
  cases hs : q.slots[i]? with
  | none => simp [carryOn, redraw, hs]
  | some s =>
    cases s with
    | running entry p =>
      have hsettle := settle_redraw q d i entry (advance b (some entry) p q.world)
      simpa [carryOn, redraw, hs] using hsettle
    | _ => simp [carryOn, redraw, hs]

theorem resume_redraw (b : Backend σ) (i : Nat) :
    (q.redraw d).resume b i = (q.resume b i).map (·.redraw d) := by
  rw [resume, resume, enter_redraw, Option.map_map, Option.map_map]
  congr 1
  funext q₁
  exact carryOn_redraw q₁ d b i

end Exact

theorem Alike.takeOn (h : q.Alike q') (p : Program α) (others : List (Program α)) :
    (q.takeOn p others).Alike (q'.takeOn p others) := by
  obtain ⟨d, rfl⟩ := h
  exact ⟨_, rfl⟩

theorem Alike.spawn (h : q.Alike q') : Option.Rel Alike q.spawn q'.spawn := by
  have htasks : q'.tasks = q.tasks := by
    obtain ⟨d, rfl⟩ := h
    rfl
  cases hq : q.tasks with
  | nil =>
    simp only [Queue.spawn, htasks, hq]
    exact .none
  | cons p others =>
    simp only [Queue.spawn, htasks, hq]
    exact .some (h.takeOn p others)

theorem refill_of_spawn {q₁ : Queue σ α} (hroom : q.hasRoom = true) (h : q.spawn = some q₁) :
    q.refill = q₁.refill := by
  rw [refill, if_pos hroom]
  split
  · rename_i hnone
    simp [h] at hnone
  · rename_i q₂ h₂
    obtain rfl := Option.some.inj (h.symm.trans h₂)
    rfl

theorem refill_of_full (h : q.hasRoom = false) : q.refill = q := by
  rw [refill, if_neg (by simp [h])]

theorem Alike.refill (h : q.Alike q') : q.refill.Alike q'.refill := by
  fun_induction Queue.refill q generalizing q' with
  | case1 q hroom hnone =>
    have htasks : q.tasks = [] := by
      cases hq : q.tasks with
      | nil => rfl
      | cons => simp [Queue.spawn, hq] at hnone
    simp [Queue.hasRoom, htasks] at hroom
  | case2 q hroom q₁ hspawn ih =>
    obtain ⟨q₁', hspawn', h₁⟩ := some_of_rel h.spawn hspawn
    rw [refill_of_spawn (h.hasRoom.trans hroom) hspawn']
    exact ih h₁
  | case3 q hroom =>
    rw [refill_of_full (h.hasRoom.trans (Bool.eq_false_iff.mpr hroom))]
    exact h

theorem Alike.join (h : q.Alike q') (k : Nat) : Option.Rel Alike (q.join k) (q'.join k) := by
  obtain ⟨d, rfl⟩ := h
  rw [join_redraw]
  exact rel_redraw _ d

theorem Alike.enter (h : q.Alike q') (i : Nat) : Option.Rel Alike (q.enter i) (q'.enter i) := by
  obtain ⟨d, rfl⟩ := h
  rw [enter_redraw]
  exact rel_redraw _ d

theorem Alike.act (h : q.Alike q') (i : Nat) : Option.Rel Alike (q.act b i) (q'.act b i) := by
  obtain ⟨d, rfl⟩ := h
  rw [act_redraw]
  exact rel_redraw _ d

theorem catchUp_of_join {q₁ : Queue σ α} (h : q.join 0 = some q₁) :
    q.catchUp = q₁.refill.catchUp := by
  rw [catchUp]
  split
  · rename_i hnone
    simp [h] at hnone
  · rename_i q₂ h₂
    obtain rfl := Option.some.inj (h.symm.trans h₂)
    rfl

theorem catchUp_of_none (h : q.join 0 = none) : q.catchUp = q := by
  rw [catchUp]
  split
  · rfl
  · rename_i q₁ h₁
    simp [h] at h₁

theorem Alike.catchUp (h : q.Alike q') : q.catchUp.Alike q'.catchUp := by
  fun_induction Queue.catchUp q generalizing q' with
  | case1 q hnone =>
    rw [catchUp_of_none (none_of_rel (h.join 0) hnone)]
    exact h
  | case2 q q₁ hjoin ih =>
    obtain ⟨q₁', hjoin', h₁⟩ := some_of_rel (h.join 0) hjoin
    rw [catchUp_of_join hjoin']
    exact ih h₁.refill

theorem Alike.attend (h : q.Alike q') : q.attend.Alike q'.attend := by
  have hready : q'.isReady = q.isReady := by
    obtain ⟨d, rfl⟩ := h
    rfl
  unfold Queue.attend
  rw [hready]
  split
  · exact h
  · exact h.catchUp

theorem Alike.render (h : q.Alike q') : q.render.Alike q'.render := by
  obtain ⟨d, rfl⟩ := h
  exact ⟨_, rfl⟩

theorem Alike.tick (h : q.Alike q') : q.tick.Alike q'.tick := by
  obtain ⟨d, rfl⟩ := h
  exact ⟨_, rfl⟩

/-- Whether the log is rendered once more depends on the display, and makes no other difference. -/
theorem Alike.renderOpen (h : q.Alike q') : q.renderOpen.Alike q'.renderOpen := by
  have hself (q₁ : Queue σ α) : q₁.Alike q₁.renderOpen := by
    unfold Queue.renderOpen
    split
    · exact ⟨_, rfl⟩
    · exact ⟨q₁.display, rfl⟩
  exact (hself q).symm.trans (h.trans (hself q'))

theorem Alike.waitUntil (h : q.Alike q') (time : Nat) :
    (q.waitUntil time).Alike (q'.waitUntil time) := by
  obtain ⟨d, rfl⟩ := h
  exact ⟨d, rfl⟩

theorem passTo_of_due {time : Nat} (h : q.nextRender ≤ max q.world.now time) :
    q.passTo time = (q.waitUntil q.nextRender).tick.passTo time := by
  rw [passTo, if_pos h]

theorem passTo_of_early {time : Nat} (h : ¬ q.nextRender ≤ max q.world.now time) :
    q.passTo time = q.waitUntil time := by
  rw [passTo, if_neg h]

/-- The times at which the log is rendered do not depend on what it shows. -/
theorem Alike.passTo (h : q.Alike q') (time : Nat) :
    (q.passTo time).Alike (q'.passTo time) := by
  fun_induction Queue.passTo time q generalizing q' with
  | case1 q htick ih =>
    rw [passTo_of_due (q := q') (by rwa [h.nextRender, h.world]), h.nextRender]
    exact ih (h.waitUntil q.nextRender).tick
  | case2 q hearly =>
    rw [passTo_of_early (q := q') (by rwa [h.nextRender, h.world])]
    exact h.waitUntil time

theorem Alike.step (h : q.Alike q') : Option.Rel Alike (q.step b) (q'.step b) := by
  have hfirst : q'.first? = q.first? := by
    obtain ⟨d, rfl⟩ := h
    rfl
  simp only [Queue.step, hfirst]
  split
  · exact .none
  · rename_i wake turn i _
    obtain ⟨d, hpassed⟩ := h.passTo wake
    rw [hpassed, resume_redraw]
    exact rel_redraw _ d

theorem exhaust_of_step {q₁ : Queue σ α} (h : q.attend.step b = some q₁) :
    q.exhaust b = q₁.exhaust b := by
  rw [exhaust]
  split
  · rename_i hnone
    simp [h] at hnone
  · rename_i q₂ h₂
    obtain rfl := Option.some.inj (h.symm.trans h₂)
    rfl

theorem exhaust_of_none (h : q.attend.step b = none) : q.exhaust b = q.attend := by
  rw [exhaust]
  split
  · rfl
  · rename_i q₁ h₁
    simp [h] at h₁

theorem Alike.exhaust (h : q.Alike q') : (q.exhaust b).Alike (q'.exhaust b) := by
  fun_induction Queue.exhaust b q generalizing q' with
  | case1 q hnone =>
    rw [exhaust_of_none (none_of_rel h.attend.step hnone)]
    exact h.attend
  | case2 q q₁ hstep ih =>
    obtain ⟨q₁', hstep', h₁⟩ := some_of_rel h.attend.step hstep
    rw [exhaust_of_step hstep']
    exact ih h₁

theorem run_alike (b : Backend σ) (limit : Nat) (tasks : List (Program α)) (world : World σ)
    (d d' : Display) : (run b limit tasks world d).Alike (run b limit tasks world d') :=
  have hstart : (ofTasks limit tasks world d).Alike (ofTasks limit tasks world d') := ⟨d', rfl⟩
  hstart.refill.exhaust.render.renderOpen

end Queue

namespace Running

/-- Two queues that are at the same place and differ in their displays at most. -/
structure Alike (r r' : Running σ α) : Prop where
  position : r'.position = r.position
  queue : r.queue.Alike r'.queue

/-- Goes through some choices. After each of them the display becomes what the function beside it makes
of it. -/
def follow (b : Backend σ) : List (Choice × (Display → Display)) → Running σ α → Option (Running σ α)
  | [], r => some r
  | (c, change) :: rest, r => (r.choose b c).bind fun r' =>
    follow b rest { r' with queue := r'.queue.redraw (change r'.queue.display) }

variable {b : Backend σ} {r r' : Running σ α}

theorem alike_proceed (h : r.Alike r') : Option.Rel Alike r.proceed r'.proceed := by
  obtain ⟨position, q⟩ := r
  obtain ⟨position', q'⟩ := r'
  obtain ⟨hposition, hqueue⟩ := h
  obtain rfl : position' = position := hposition
  have hqueue : q.Alike q' := hqueue
  have hroom := hqueue.hasRoom
  have htaken : q'.taken = q.taken := by
    obtain ⟨d, rfl⟩ := hqueue
    rfl
  cases position' with
  | filling =>
    simp only [proceed, hroom, htaken]
    split
    · exact rel_map hqueue.spawn fun _ _ h => ⟨rfl, h⟩
    · exact .some ⟨rfl, hqueue⟩
  | closing => exact .some ⟨rfl, hqueue.render⟩
  | leaving => exact .some ⟨rfl, hqueue.renderOpen⟩
  | waiting => exact .none
  | returned => exact .none

theorem alike_choose (h : r.Alike r') (c : Choice) :
    Option.Rel Alike (r.choose b c) (r'.choose b c) := by
  have hqueue := h.queue
  cases c with
  | proceed => exact alike_proceed h
  | join k =>
    simp only [choose, h.position]
    split
    · exact rel_map (hqueue.join k) fun _ _ h => ⟨rfl, h⟩
    · exact .none
  | tick =>
    simp only [choose, h.position]
    split
    · exact .some ⟨rfl, hqueue.tick⟩
    · exact .none
  | enter i =>
    have hdue : r'.queue.isDue i = r.queue.isDue i := by
      obtain ⟨d, hd⟩ := hqueue
      rw [hd]
      rfl
    simp only [choose, hdue]
    split
    · exact rel_map (hqueue.enter i) fun _ _ hq => ⟨h.position, hq⟩
    · exact .none
  | act i => exact rel_map (hqueue.act i) fun _ _ hq => ⟨h.position, hq⟩
  | pass time => exact .some ⟨h.position, hqueue.waitUntil time⟩

/-- The same choices lead two queues on in the same way, whatever happens to their displays. -/
theorem alike_follow {steps steps' : List (Choice × (Display → Display))}
    (hsteps : steps.map (·.1) = steps'.map (·.1)) (h : r.Alike r') :
    Option.Rel Alike (r.follow b steps) (r'.follow b steps') := by
  induction steps generalizing steps' r r' with
  | nil =>
    obtain rfl : steps' = [] := List.map_eq_nil_iff.mp hsteps.symm
    exact .some h
  | cons s steps ih =>
    cases steps' with
    | nil => simp at hsteps
    | cons s' steps' =>
      obtain ⟨hchoice, hsteps⟩ := List.cons.inj hsteps
      have hrel := alike_choose (b := b) h s.1
      simp only [follow, ← hchoice]
      cases hs : r.choose b s.1 with
      | none =>
        rw [none_of_rel hrel hs]
        exact .none
      | some r₁ =>
        obtain ⟨r₁', hs', h₁⟩ := some_of_rel hrel hs
        rw [hs']
        refine ih hsteps ⟨h₁.position, ?_⟩
        obtain ⟨d, hd⟩ := h₁.queue
        exact ⟨_, by rw [hd]; rfl⟩

end Running

end Muster
