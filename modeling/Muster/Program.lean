import Muster.Call
import Muster.Progress.Entry

/-! Programs of tasks: what a task does next, and how it goes on with each answer that it may get. -/

namespace Muster

inductive Effect where
  | clock
  /-- Goes on at a time, at once if that has passed. -/
  | sleepUntil (time : Nat)
  | call (c : Call)
  | change (c : Progress.Change)
  | hasEnded
  | enter (arg : String)
  | invoke (value : String)

def Effect.Answer : Effect → Type
  | .clock => Nat
  | .sleepUntil _ => Unit
  | .call c => Except ApiError c.Answer
  | .change _ => Unit
  | .hasEnded => Bool
  | .enter _ => Unit
  | .invoke _ => Unit

/-- A task as a tree: it has ended with a result, it crashes, or it has an effect and goes on with the
answer. -/
inductive Program (α : Type) where
  | done (a : α)
  | crash
  | act (e : Effect) (next : e.Answer → Program α)

namespace Program

variable {α β : Type}

def bind (p : Program α) (f : α → Program β) : Program β :=
  match p with
  | .done a => f a
  | .crash => .crash
  | .act e next => .act e fun x => (next x).bind f

instance : Monad Program where
  pure := .done
  bind := bind

def perform (e : Effect) : Program e.Answer := .act e .done

def clock : Program Nat := perform .clock

def sleepUntil (time : Nat) : Program Unit := perform (.sleepUntil time)

def sleep (span : Nat) : Program Unit := do
  let now ← clock
  sleepUntil (now + span)

def call (c : Call) : Program (Except ApiError c.Answer) := perform (.call c)

def change (c : Progress.Change) : Program Unit := perform (.change c)

/-- A program that another may become after one effect. -/
inductive Child : Program α → Program α → Prop where
  | next (e : Effect) (next : e.Answer → Program α) (x : e.Answer) : Child (next x) (.act e next)

theorem child_acc (p : Program α) : Acc Child p := by
  induction p with
  | done a => exact ⟨_, fun _ h => nomatch h⟩
  | crash => exact ⟨_, fun _ h => nomatch h⟩
  | act e next ih =>
    refine ⟨_, fun q h => ?_⟩
    cases h with
    | next _ _ x => exact ih x

/-- A program that another may become after some effects, at least one. -/
def Below : Program α → Program α → Prop := Relation.TransGen Child

theorem below_acc (p : Program α) : Acc Below p := (child_acc p).transGen

end Program

end Muster
