import Muster.Program

/-! Running programs of tasks: the service that answers calls, the clock, the entries and a journal of
what happened. A task runs until an effect makes it wait. -/

namespace Muster

/-- A call on its way: how long it takes, the state of the service meanwhile, and how it ends, at which
time and from which state. -/
structure Transit (σ α : Type) where
  delay : Nat
  state : σ
  finish : Nat → σ → Reply α × σ

structure Backend (σ : Type) where
  receive : (c : Call) → Nat → σ → Transit σ c.Answer

/-- Something that happened. A task is handed its entry before it begins, and the calls of actions tell
the entry of the task. -/
inductive Event where
  | called (c : Call)
  | entered (arg : String)
  | invoked (own? : Option Nat) (value : String)
  | handed (job entry : Nat)
  | began (job : Nat)
  | ended (job : Nat)
  | crashed (job : Nat)
  deriving DecidableEq, Repr

/-- Everything that tasks share. The journal has the latest event first. -/
structure World (σ : Type) where
  now : Nat := 0
  state : σ
  entries : List Progress.Entry := []
  journal : List (Nat × Event) := []

namespace World

variable {σ α : Type}

def record (w : World σ) (e : Event) : World σ := { w with journal := (w.now, e) :: w.journal }

def events (w : World σ) : List (Nat × Event) := w.journal.reverse

def calls (w : World σ) : List (Nat × Call) :=
  w.events.filterMap fun e =>
    match e.2 with
    | .called c => some (e.1, c)
    | _ => none

def entered (w : World σ) : List (Nat × String) :=
  w.events.filterMap fun e =>
    match e.2 with
    | .entered arg => some (e.1, arg)
    | _ => none

def changeEntry (w : World σ) (entry : Nat) (c : Progress.Change) : World σ :=
  { w with entries := w.entries.modify entry fun e => e.apply w.now c }

end World

/-- What becomes of an effect: it is answered at once, it crashes the task, or its answer comes at a
later time. -/
inductive Begun (σ α : Type) where
  | answered (a : α) (w : World σ)
  | crashed (w : World σ)
  | later (time : Nat) (finish : Nat → σ → Option α × σ) (w : World σ)

def Reply.deliver {α σ : Type} : Reply α × σ → Option (Except ApiError α) × σ
  | (.answer a, s) => (some (.ok a), s)
  | (.failure e, s) => (some (.error e), s)
  | (.crash, s) => (none, s)

def World.begin {σ : Type} (b : Backend σ) (own? : Option Nat) (w : World σ) :
    (e : Effect) → Begun σ e.Answer
  | .clock => .answered w.now w
  | .sleepUntil time =>
    if time ≤ w.now then .answered () w else .later time (fun _ s => (some (), s)) w
  | .call c =>
    let w := w.record (.called c)
    let t := b.receive c w.now w.state
    if t.delay = 0 then
      match Reply.deliver (t.finish w.now t.state) with
      | (some a, s) => .answered a { w with state := s }
      | (none, s) => .crashed { w with state := s }
    else
      .later (w.now + t.delay) (fun now s => Reply.deliver (t.finish now s))
        { w with state := t.state }
  | .change c =>
    match own? with
    | none => .answered () w
    | some i => .answered () (w.changeEntry i c)
  | .hasEnded => .answered ((own?.bind (w.entries[·]?)).any (·.isDone)) w
  | .enter arg => .answered () (w.record (.entered arg))
  | .invoke value => .answered () (w.record (.invoked own? value))

structure Suspension (σ α : Type) where
  effect : Effect
  finish : Nat → σ → Option effect.Answer × σ
  next : effect.Answer → Program α

def Suspension.program {σ α : Type} (s : Suspension σ α) : Program α := .act s.effect s.next

inductive Halt (σ α : Type) where
  | ended (a : α)
  | crashed
  | suspended (wake : Nat) (s : Suspension σ α)

def advance {σ α : Type} (b : Backend σ) (own? : Option Nat) :
    Program α → World σ → Halt σ α × World σ
  | .done a, w => (.ended a, w)
  | .crash, w => (.crashed, w)
  | .act e next, w =>
    match w.begin b own? e with
    | .answered a w => advance b own? (next a) w
    | .crashed w => (.crashed, w)
    | .later time finish w => (.suspended time ⟨e, finish, next⟩, w)

/-- Runs a task to its end, with no other tasks beside it. There is no result if it crashes. -/
def runAlone {σ α : Type} (b : Backend σ) (own? : Option Nat) :
    Program α → World σ → Option α × World σ
  | .done a, w => (some a, w)
  | .crash, w => (none, w)
  | .act e next, w =>
    match w.begin b own? e with
    | .answered a w => runAlone b own? (next a) w
    | .crashed w => (none, w)
    | .later time finish w =>
      match finish time w.state with
      | (some a, s) => runAlone b own? (next a) { w with now := time, state := s }
      | (none, s) => (none, { w with now := time, state := s })

/-- A task that waits has come no further back than it was. -/
theorem advance_suspended {σ α : Type} {b : Backend σ} {own? : Option Nat} {p : Program α}
    {w w' : World σ} {wake : Nat} {s : Suspension σ α}
    (h : advance b own? p w = (.suspended wake s, w')) :
    s.program = p ∨ Program.Below s.program p := by
  induction p generalizing w with
  | done a => simp [advance] at h
  | crash => simp [advance] at h
  | act e next ih =>
    simp only [advance] at h
    split at h
    · rename_i a w₁ _
      right
      rcases ih a h with heq | hlt
      · exact heq ▸ .single (.next e next a)
      · exact hlt.tail (.next e next a)
    · simp at h
    · simp only [Prod.mk.injEq, Halt.suspended.injEq] at h
      left
      rw [← h.1.2]
      rfl

end Muster
