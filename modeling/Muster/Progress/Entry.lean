/-! The progress of one task as people see it: a line of text, what is told below it, and how far the
task has come. -/

namespace Muster.Progress

inductive Outcome where
  | success
  | failed
  | warning
  deriving DecidableEq, Repr, Inhabited

/-- How far a task has come, and since when it has run. A task that ended has also started. -/
inductive Stage where
  | waiting
  | running (since : Nat)
  | ended (since : Nat) (outcome : Outcome)
  deriving DecidableEq, Repr, Inhabited

inductive Phase where
  | pending
  | inProgress
  | done
  deriving DecidableEq, Repr

/-- The progress of one task. The details follow the last line of the task, behind `lead`. -/
structure Entry where
  message : String
  details : String := ""
  lead : String := ""
  stage : Stage := .waiting
  deriving DecidableEq, Repr, Inhabited

inductive Change where
  | message (text : String)
  | details (text lead : String)
  | start
  | finish (outcome : Outcome)
  deriving DecidableEq, Repr

def Stage.start (now : Nat) : Stage → Stage
  | .waiting => .running now
  | s => s

def Stage.finish (now : Nat) (outcome : Outcome) : Stage → Stage
  | .waiting => .ended now outcome
  | .running since => .ended since outcome
  | .ended since first => .ended since first

def Stage.phase : Stage → Phase
  | .waiting => .pending
  | .running _ => .inProgress
  | .ended _ _ => .done

def Stage.since? : Stage → Option Nat
  | .waiting => none
  | .running since => some since
  | .ended since _ => some since

def Stage.outcome? : Stage → Option Outcome
  | .ended _ outcome => some outcome
  | _ => none

namespace Entry

def isDone (e : Entry) : Bool := e.stage.outcome?.isSome

def isStarted (e : Entry) : Bool := e.stage.since?.isSome

def apply (e : Entry) (now : Nat) : Change → Entry
  | .message text => { e with message := text }
  | .details text lead => { e with details := text, lead }
  | .start => { e with stage := e.stage.start now }
  | .finish outcome => { e with stage := e.stage.finish now outcome }

end Entry

end Muster.Progress
