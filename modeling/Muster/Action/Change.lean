import Muster.Action
import Muster.Task
import Muster.Wait

/-! The actions that change a resource: starting, stopping and deleting. A task tells what it does, and
ends its line itself. -/

namespace Muster

def Server.toJson (s : Server) : Json :=
  .ofFields [("uuid", .string s.uuid), ("title", .string s.title),
    ("hostname", .string s.hostname), ("zone", .string s.zone), ("state", .string s.state),
    ("plan", .string s.plan)]

namespace Action

def serverLabel (known : Snapshot .server) (uuid : String) : String :=
  match known.find uuid with
  | .ok s => s.title
  | .error _ => uuid

def storageLabel (known : Snapshot .storage) (uuid : String) : String :=
  match known.find uuid with
  | .ok s => s.title
  | .error _ => uuid

def listedAs (known : Snapshot .server) (uuid state : String) : Bool :=
  match known.find uuid with
  | .ok s => s.state == state
  | .error _ => false

def isIn (uuid state : String) : Program (Except ApiError Bool) := do
  return match ← Program.call (.serverDetails uuid) with
    | .ok s => .ok (s.state == state)
    | .error e => .error e

def awaitState (p : WaitPolicy) (uuid state : String) : Program (Except CommandError Unit) := do
  let report ← p.wait ("server " ++ uuid ++ " to be " ++ state) fun _ => isIn uuid state
  return report.result

def giveUp (message : String) (e : CommandError) : Program Outcome := do
  return .error (← Task.fail message e)

structure Transition where
  doing : String
  target : String
  already : String
  waiting : String

def starting : Transition := ⟨"Starting server ", Server.started, ": already started",
  ": waiting to start"⟩

def stopping : Transition := ⟨"Stopping server ", Server.stopped, ": already stopped",
  ": waiting to stop"⟩

/-- Brings a server into another state by a call, and waits until it is there if asked to. Nothing is
called for a server that was listed in that state. -/
def Transition.run (t : Transition) (p : WaitPolicy) (waits : Bool)
    (request : Program (Except ApiError Server)) (known : Snapshot .server) (uuid : String) :
    Program Outcome := do
  let message := t.doing ++ serverLabel known uuid
  Task.started message
  if listedAs known uuid t.target then
    Task.warning (message ++ t.already) "nothing to do"
    return .ok .none
  match ← request with
  | .error e => giveUp message (.api e)
  | .ok server =>
    let success : Program Outcome := do
      Task.success (message ++ ": success")
      return .ok (.value server.toJson)
    if waits then
      Task.update (message ++ t.waiting)
      match ← awaitState p uuid t.target with
      | .error e => giveUp message e
      | .ok () => success
    else success

def delete (message : String) (request : Program (Except ApiError Unit)) : Program Outcome := do
  Task.started message
  match ← request with
  | .error e => giveUp message (.api e)
  | .ok () =>
    Task.success (message ++ ": success")
    return .ok .none

end Action

end Muster
