import Muster.Output
import Muster.Task
import Muster.Wait

/-! Actions that follow a script, step by step. -/

namespace Muster.Rehearsal

/-- A step of an action. In a text, a pair of braces stands for the value that the action is for. The
checks of a wait take `span` milliseconds each; the one numbered `failAt?` fails, and those after the
number `readyAfter?` find the condition true. -/
inductive Step where
  | started (text : String)
  | update (text : String)
  | success (text : String)
  | warning (text details : String)
  | sleep (span : Nat)
  | fail (text : String) (e : CommandError) (returns : Bool)
  | wait (target : String) (span : Nat) (failAt? : Option Nat) (failure : ApiError)
      (readyAfter? : Option Nat) (returns : Bool)
  | crash
  | error (e : CommandError)
  | ok (output : Output)

inductive Info where
  | nothing
  | failure (e : CommandError)
  | wait (report : WaitReport) (ended : Nat) (cancelled : Bool)

inductive Course where
  | goesOn (info : Info)
  | ends (result : Except CommandError Output)

def insertValue (value : List Char) : List Char → List Char
  | [] => []
  | '\x7b' :: '\x7d' :: cs => value ++ insertValue value cs
  | c :: cs => c :: insertValue value cs

def check (span : Nat) (failAt? : Option Nat) (failure : ApiError) (readyAfter? : Option Nat)
    (n : Nat) : Program (Except ApiError Bool) := do
  if 0 < span then Program.sleep span
  if failAt? == some n then return .error failure
  return .ok (readyAfter?.any (· < n))

def Step.run (p : WaitPolicy) (value : String) (s : Step) : Program Course :=
  let insert (text : String) : String := String.ofList (insertValue value.toList text.toList)
  let goOn : Course := .goesOn .nothing
  match s with
  | .started text => do
    Task.started (insert text)
    return goOn
  | .update text => do
    Task.update (insert text)
    return goOn
  | .success text => do
    Task.success (insert text)
    return goOn
  | .warning text details => do
    Task.warning (insert text) details
    return goOn
  | .sleep span => do
    Program.sleep span
    return goOn
  | .fail text e returns => do
    let e ← Task.fail (insert text) e
    return if returns then .ends (.error e) else .goesOn (.failure e)
  | .wait target span failAt? failure readyAfter? returns => do
    let report ← p.wait target (check span failAt? failure readyAfter?)
    match report.result, returns with
    | .error e, true => return .ends (.error e)
    | _, _ =>
      let now ← Program.clock
      return .goesOn (.wait report now (p.interrupts.flagAt now))
  | .crash => .crash
  | .error e => return .ends (.error e)
  | .ok output => return .ends (.ok output)

/-- The program of steps in a row, with the result that one of them ends the action with, if one
does. -/
def runSteps (p : WaitPolicy) (value : String) :
    List Step → Program (Option (Except CommandError Output))
  | [] => return none
  | s :: ss => do
    match ← s.run p value with
    | .ends result => return some result
    | .goesOn _ => runSteps p value ss

end Muster.Rehearsal
