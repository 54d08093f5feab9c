import Muster.Progress.Log
import Muster.World

/-! Running many tasks with a bound on how many run at once. One task runs at a time, until it has ended
or waits; the one that may go on first is next. Places of ended tasks are taken by new ones when no task
is ready, and the log is rendered at regular times. -/

namespace Muster

structure Display where
  config : Progress.Config := {}
  columns : Nat := Progress.defaultColumns
  log : Progress.Log := {}
  sink : Progress.Sink := {}
  deriving Repr, Inhabited

/-- Renders the log. A failure to write does not matter. -/
def Display.render (d : Display) (now : Nat) (entries : List Progress.Entry) : Display :=
  let (log, sink, _) := d.log.render d.config d.columns now entries d.sink
  { d with log, sink }

def renderInterval : Nat := 100

/-- Where one task is that has an entry. It goes on at a time and turn, at once if it runs. -/
inductive Slot (σ α : Type) where
  | ready (wake turn entry : Nat) (p : Program α)
  | running (entry : Nat) (p : Program α)
  | waiting (wake turn entry : Nat) (s : Suspension σ α)
  | ended (a? : Option α)

namespace Slot

variable {σ α : Type}

def isActive : Slot σ α → Bool
  | .ended _ => false
  | _ => true

def due? : Slot σ α → Option (Nat × Nat)
  | .ready wake turn _ _ => some (wake, turn)
  | .running _ _ => some (0, 0)
  | .waiting wake turn _ _ => some (wake, turn)
  | .ended _ => none

def rest? : Slot σ α → Option (Program α)
  | .ready _ _ _ p => some (.act .clock fun _ => p)
  | .running _ p => some (.act .clock fun _ => p)
  | .waiting _ _ _ s => some s.program
  | .ended _ => none

end Slot

structure Stats where
  completed : Nat := 0
  panicked : Nat := 0
  deriving DecidableEq, Repr, Inhabited

def Stats.count (s : Stats) (crashed : Bool) : Stats :=
  if crashed then { s with panicked := s.panicked + 1 }
  else { s with completed := s.completed + 1 }

/-- A queue of tasks: the greatest number that is taken at once; the tasks that have not been taken, in
order; those that have, in order; which of these have ended but not been joined, in the order in which
they ended, by whether they crashed; the counts of those that have been joined; the results of those
that ended, none for one that crashed, in the order in which they ended; the next turn to give out; and
the next time to render. -/
structure Queue (σ α : Type) where
  limit : Nat
  world : World σ
  display : Display
  tasks : List (Program α)
  slots : List (Slot σ α) := []
  unjoined : List Bool := []
  stats : Stats := {}
  results : List (Nat × Option α) := []
  turn : Nat := 0
  nextRender : Nat

namespace Queue

variable {σ α : Type}

def active (q : Queue σ α) : Nat := q.slots.countP Slot.isActive

def taken (q : Queue σ α) : Nat := q.active + q.unjoined.length

def hasRoom (q : Queue σ α) : Bool := q.taken < max 1 q.limit && !q.tasks.isEmpty

def takeOn (q : Queue σ α) (p : Program α) (others : List (Program α)) : Queue σ α :=
  let entry := q.world.entries.length
  let world := q.world.record (.handed q.slots.length entry)
  { q with
    tasks := others
    slots := q.slots ++ [.ready q.world.now q.turn entry p]
    turn := q.turn + 1
    world := { world with entries := q.world.entries ++ [{ message := "" }] }
    display := { q.display with log := q.display.log.add [entry] } }

def spawn (q : Queue σ α) : Option (Queue σ α) :=
  match q.tasks with
  | [] => none
  | p :: others => some (q.takeOn p others)

def refill (q : Queue σ α) : Queue σ α :=
  if q.hasRoom then
    match _h : q.spawn with
    | none => q
    | some q' => refill q'
  else q
termination_by q.tasks.length
decreasing_by
  unfold spawn at _h
  split at _h
  · simp at _h
  · rename_i htasks
    obtain rfl := Option.some.inj _h
    simp [takeOn, htasks]

def join (k : Nat) (q : Queue σ α) : Option (Queue σ α) :=
  match q.unjoined[k]? with
  | none => none
  | some crashed =>
    some { q with unjoined := q.unjoined.eraseIdx k, stats := q.stats.count crashed }

theorem unjoined_spawn {q q' : Queue σ α} (h : q.spawn = some q') : q'.unjoined = q.unjoined := by
  unfold spawn at h
  split at h
  · simp at h
  · obtain rfl := Option.some.inj h
    rfl

theorem unjoined_refill (q : Queue σ α) : q.refill.unjoined = q.unjoined := by
  fun_induction refill q with
  | case1 => rfl
  | case2 q _ q' h ih => rw [ih, unjoined_spawn h]
  | case3 => rfl

theorem length_unjoined_join {q q' : Queue σ α} {k : Nat} (h : q.join k = some q') :
    q'.unjoined.length + 1 = q.unjoined.length := by
  unfold join at h
  split at h
  · simp at h
  · rename_i hk
    obtain rfl := Option.some.inj h
    have hlt := (List.getElem?_eq_some_iff.mp hk).1
    simp only [List.length_eraseIdx, hlt, if_true]
    omega

/-- Joins all tasks that have ended, and takes others in their places. -/
def catchUp (q : Queue σ α) : Queue σ α :=
  match _h : q.join 0 with
  | none => q
  | some q' => catchUp q'.refill
termination_by q.unjoined.length
decreasing_by
  have := length_unjoined_join _h
  rw [unjoined_refill]
  omega

def earlier (a b : Nat × Nat × Nat) : Nat × Nat × Nat :=
  if b.1 < a.1 ∨ (b.1 = a.1 ∧ b.2.1 < a.2.1) then b else a

def dues (q : Queue σ α) : List (Nat × Nat × Nat) :=
  q.slots.zipIdx.filterMap fun (s, i) => s.due?.map fun (wake, turn) => (wake, turn, i)

def earliest (acc : Option (Nat × Nat × Nat)) (c : Nat × Nat × Nat) : Option (Nat × Nat × Nat) :=
  match acc with
  | none => some c
  | some a => some (earlier a c)

def first? (q : Queue σ α) : Option (Nat × Nat × Nat) := q.dues.foldl earliest none

def render (q : Queue σ α) : Queue σ α :=
  { q with display := q.display.render q.world.now q.world.entries }

def tick (q : Queue σ α) : Queue σ α :=
  { q.render with nextRender := q.world.now + renderInterval }

def waitUntil (time : Nat) (q : Queue σ α) : Queue σ α :=
  { q with world := { q.world with now := max q.world.now time } }

/-- Lets the time pass until the given one, and renders the log at the regular times. -/
def passTo (time : Nat) (q : Queue σ α) : Queue σ α :=
  if q.nextRender ≤ max q.world.now time then passTo time (q.waitUntil q.nextRender).tick
  else q.waitUntil time
termination_by max q.world.now time + 1 - q.nextRender
decreasing_by simp only [waitUntil, tick, render, renderInterval]; omega

def closing (i : Nat) (a? : Option α) : Event := if a?.isSome then .ended i else .crashed i

/-- Ends a task, with its result or none if it crashed, in a run that left the given world. -/
def close (q : Queue σ α) (i entry : Nat) (a? : Option α) (w : World σ) : Queue σ α :=
  { q with
    slots := q.slots.set i (.ended a?)
    unjoined := q.unjoined ++ [a?.isNone]
    results := q.results ++ [(i, a?)]
    world := (w.record (closing i a?)).changeEntry entry
      (.finish (if a?.isSome then .success else .failed)) }

def settle (q : Queue σ α) (i entry : Nat) : Halt σ α × World σ → Queue σ α
  | (.ended a, w) => q.close i entry (some a) w
  | (.crashed, w) => q.close i entry none w
  | (.suspended wake s, w) =>
    { q with
      slots := q.slots.set i (.waiting wake q.turn entry s)
      turn := q.turn + 1
      world := w }

def enter (i : Nat) (q : Queue σ α) : Option (Queue σ α) :=
  match q.slots[i]? with
  | some (.ready _ _ entry p) =>
    some { q with
      slots := q.slots.set i (.running entry p)
      world := q.world.record (.began i) }
  | some (.running _ _) => some q
  | some (.waiting _ _ entry s) =>
    match s.finish q.world.now q.world.state with
    | (some a, state) =>
      some { q with
        slots := q.slots.set i (.running entry (s.next a))
        world := { q.world with state } }
    | (none, state) => some (q.close i entry none { q.world with state })
  | _ => none

def carryOn (b : Backend σ) (i : Nat) (q : Queue σ α) : Queue σ α :=
  match q.slots[i]? with
  | some (.running entry p) => q.settle i entry (advance b (some entry) p q.world)
  | _ => q

def resume (b : Backend σ) (i : Nat) (q : Queue σ α) : Option (Queue σ α) :=
  (q.enter i).map (carryOn b i)

def isReady (q : Queue σ α) : Bool :=
  match q.first? with
  | some (wake, _, _) => wake ≤ q.world.now
  | none => false

/-- Looks after the tasks that have ended when no other can go on. -/
def attend (q : Queue σ α) : Queue σ α := if q.isReady then q else q.catchUp

def step (b : Backend σ) (q : Queue σ α) : Option (Queue σ α) :=
  match q.first? with
  | none => none
  | some (wake, _, i) => (q.passTo wake).resume b i

end Queue

structure Backlog (α : Type) where
  rests : List (Program α)

namespace Backlog

variable {α : Type}

/-- One of the tasks ended or came further. -/
inductive Shrinks : List (Program α) → List (Program α) → Prop where
  | gone (p : Program α) (ps : List (Program α)) : Shrinks ps (p :: ps)
  | less {q p : Program α} (ps : List (Program α)) : Program.Below q p → Shrinks (q :: ps) (p :: ps)
  | cons (p : Program α) {qs ps : List (Program α)} : Shrinks qs ps → Shrinks (p :: qs) (p :: ps)

theorem acc_cons {p : Program α} (hp : Acc Program.Below p) {ps : List (Program α)}
    (hps : Acc Shrinks ps) : Acc Shrinks (p :: ps) := by
  induction hp generalizing ps with
  | intro p _ ihp =>
    induction hps with
    | intro ps hps ihps =>
      refine ⟨_, fun qs h => ?_⟩
      cases h with
      | gone => exact ⟨_, hps⟩
      | less _ hq => exact ihp _ hq ⟨_, hps⟩
      | cons _ hqs => exact ihps _ hqs

theorem acc (ps : List (Program α)) : Acc Shrinks ps := by
  induction ps with
  | nil => exact ⟨_, fun _ h => nomatch h⟩
  | cons p ps ih => exact acc_cons (Program.below_acc p) ih

instance : WellFoundedRelation (Backlog α) where
  rel a b := Shrinks a.rests b.rests
  wf := InvImage.wf Backlog.rests ⟨acc⟩

end Backlog

namespace Queue

variable {σ α : Type}

def backlog (q : Queue σ α) : Backlog α :=
  ⟨q.slots.filterMap Slot.rest? ++ q.tasks.map fun p => .act .clock fun _ => p⟩

theorem shrinks_set {slots : List (Slot σ α)} {i : Nat} {s s' : Slot σ α} {p : Program α}
    {later : List (Program α)} (hs : slots[i]? = some s) (hp : s.rest? = some p)
    (h : s'.rest? = none ∨ ∃ q, s'.rest? = some q ∧ Program.Below q p) :
    Backlog.Shrinks ((slots.set i s').filterMap Slot.rest? ++ later)
      (slots.filterMap Slot.rest? ++ later) := by
  induction slots generalizing i with
  | nil => simp at hs
  | cons a as ih =>
    cases i with
    | zero =>
      obtain rfl : a = s := by simpa using hs
      rcases h with hn | ⟨q, hq, hlt⟩
      · simpa [hn, hp] using Backlog.Shrinks.gone p _
      · simpa [hq, hp] using Backlog.Shrinks.less _ hlt
    | succ i =>
      have := ih (i := i) (by simpa using hs)
      cases ha : a.rest? with
      | none => simpa [ha] using this
      | some r => simpa [ha] using Backlog.Shrinks.cons r this

/-- Of a task that waited, what is left now that it runs. -/
theorem shrinks_carryOn {b : Backend σ} {q : Queue σ α} {slots : List (Slot σ α)} {i entry : Nat}
    {s : Slot σ α} {p p' : Program α} (hi : slots[i]? = some s) (hp : s.rest? = some p)
    (hlt : Program.Below p' p) (hq : q.slots = slots.set i (.running entry p')) :
    Backlog.Shrinks (q.carryOn b i).backlog.rests
      (slots.filterMap Slot.rest? ++ q.tasks.map fun p => .act .clock fun _ => p) := by
  have hlen := (List.getElem?_eq_some_iff.mp hi).1
  have hrunning : q.slots[i]? = some (.running entry p') := by simp [hq, hlen]
  simp only [carryOn, hrunning]
  rcases hhalt : advance b (some entry) p' q.world with ⟨_ | _ | ⟨wake, r⟩, w⟩
  · simpa [settle, close, backlog, hq] using shrinks_set hi hp (.inl rfl)
  · simpa [settle, close, backlog, hq] using shrinks_set hi hp (.inl rfl)
  · have hr : Program.Below r.program p := by
      rcases advance_suspended hhalt with heq | hr
      · exact heq ▸ hlt
      · exact Relation.TransGen.trans hr hlt
    simpa [settle, backlog, hq] using
      shrinks_set hi hp (.inr ⟨r.program, rfl, hr⟩)

theorem shrinks_resume {b : Backend σ} {i : Nat} {q q' : Queue σ α} (h : q.resume b i = some q') :
    Backlog.Shrinks q'.backlog.rests q.backlog.rests := by
  obtain ⟨q₁, henter, rfl⟩ := Option.map_eq_some_iff.mp h
  unfold enter at henter
  split at henter
  · rename_i entry p hs
    obtain rfl := Option.some.inj henter
    exact shrinks_carryOn hs rfl (.single (.next .clock (fun _ => p) (0 : Nat))) rfl
  · rename_i entry p hs
    obtain rfl := Option.some.inj henter
    obtain ⟨_, hrunning⟩ := List.getElem?_eq_some_iff.mp hs
    have hset : q.slots = q.slots.set i (.running entry p) := by
      rw [← hrunning, List.set_getElem_self]
    exact shrinks_carryOn hs rfl (.single (.next .clock (fun _ => p) (0 : Nat))) hset
  · rename_i entry s hs
    split at henter
    · rename_i a state _
      obtain rfl := Option.some.inj henter
      exact shrinks_carryOn hs rfl (.single (.next s.effect s.next a)) rfl
    · obtain rfl := Option.some.inj henter
      have hlen := (List.getElem?_eq_some_iff.mp hs).1
      simpa [carryOn, close, backlog, hlen] using shrinks_set hs rfl (.inl rfl)
  · simp at henter

theorem backlog_spawn {q q' : Queue σ α} (h : q.spawn = some q') : q'.backlog = q.backlog := by
  unfold spawn at h
  split at h
  · simp at h
  · rename_i htasks
    obtain rfl := Option.some.inj h
    simp [backlog, takeOn, htasks, Slot.rest?]

theorem backlog_refill (q : Queue σ α) : q.refill.backlog = q.backlog := by
  fun_induction refill q with
  | case1 => rfl
  | case2 q _ q' h ih => rw [ih, backlog_spawn h]
  | case3 => rfl

theorem backlog_join {q q' : Queue σ α} {k : Nat} (h : q.join k = some q') :
    q'.backlog = q.backlog := by
  unfold join at h
  split at h
  · simp at h
  · obtain rfl := Option.some.inj h
    rfl

theorem backlog_catchUp (q : Queue σ α) : q.catchUp.backlog = q.backlog := by
  fun_induction catchUp q with
  | case1 => rfl
  | case2 q q' h ih => rw [ih, backlog_refill, backlog_join h]

theorem backlog_attend (q : Queue σ α) : q.attend.backlog = q.backlog := by
  unfold attend
  split
  · rfl
  · exact backlog_catchUp q

theorem backlog_passTo (time : Nat) (q : Queue σ α) : (q.passTo time).backlog = q.backlog := by
  fun_induction passTo time q with
  | case1 q _ ih => exact ih
  | case2 => rfl

theorem shrinks_step {b : Backend σ} {q q' : Queue σ α} (h : q.step b = some q') :
    Backlog.Shrinks q'.backlog.rests q.backlog.rests := by
  unfold step at h
  split at h
  · simp at h
  · rename_i wake _ _ _
    exact backlog_passTo wake q ▸ shrinks_resume h

def exhaust (b : Backend σ) (q : Queue σ α) : Queue σ α :=
  match _h : q.attend.step b with
  | none => q.attend
  | some q' => exhaust b q'
termination_by q.backlog
decreasing_by exact backlog_attend q ▸ shrinks_step _h

def hasOpenEntries (q : Queue σ α) : Bool :=
  0 < q.display.log.pending.length + q.display.log.inProgress.length

/-- Renders the log again at the end, for entries that ended since they were last moved. -/
def renderOpen (q : Queue σ α) : Queue σ α := if q.hasOpenEntries then q.render else q

def ofTasks (limit : Nat) (tasks : List (Program α)) (world : World σ) (display : Display) :
    Queue σ α :=
  { limit, world, display, tasks, nextRender := world.now }

/-- Runs the given tasks, at most `limit` at once, or one if that is zero. -/
def run (b : Backend σ) (limit : Nat) (tasks : List (Program α)) (world : World σ)
    (display : Display) : Queue σ α :=
  ((ofTasks limit tasks world display).refill.exhaust b).render.renderOpen

/-- How many tasks ran at once at most, by a journal in order. -/
def peak (running : Nat) : List (Nat × Event) → Nat
  | [] => running
  | (_, .began _) :: es => peak (running + 1) es
  | (_, .ended _) :: es => max running (peak (running - 1) es)
  | (_, .crashed _) :: es => max running (peak (running - 1) es)
  | _ :: es => peak running es

end Queue

end Muster
