import Muster.Candidates
import Muster.Output
import Muster.Program

/-! The actions that a command line can ask for, and how they are given to tasks. -/

namespace Muster

/-- What the arguments of a command stand for: nothing, so that there is one task; one resource each; or
any number of resources each. -/
inductive Mode where
  | none
  | only (k : Kind)
  | all (k : Kind)
  deriving DecidableEq, Repr

namespace Mode

def kind? : Mode → Option Kind
  | .none => Option.none
  | .only k => some k
  | .all k => some k

def Known : Mode → Type
  | .none => Unit
  | .only k => Snapshot k
  | .all k => Snapshot k

def nothingKnown : (m : Mode) → m.Known
  | .none => ()
  | .only _ => {}
  | .all _ => {}

end Mode

abbrev Outcome := Except CommandError Output

/-- A command: its name, how many of its tasks run at once, and the action of a task on the value that
its argument stands for. -/
structure Command where
  name : String
  limit : Nat
  mode : Mode
  action : mode.Known → String → Program Outcome

inductive Action where
  | accountShow
  | serverList
  | serverShow
  | serverStart (waits : Bool)
  | serverStop (how : StopType) (waits : Bool)
  | serverDelete (withStorages : Bool)
  | networkList
  | networkShow
  | storageList
  | storageShow
  | storageDelete
  deriving DecidableEq, Repr

namespace Action

def name : Action → String
  | .accountShow => "account show"
  | .serverList => "server list"
  | .serverShow => "server show"
  | .serverStart _ => "server start"
  | .serverStop _ _ => "server stop"
  | .serverDelete _ => "server delete"
  | .networkList => "network list"
  | .networkShow => "network show"
  | .storageList => "storage list"
  | .storageShow => "storage show"
  | .storageDelete => "storage delete"

/-- What the arguments stand for. Showing may be asked for many resources at once, except for
networks; what changes a resource must name it. -/
def mode : Action → Mode
  | .accountShow | .serverList | .networkList | .storageList => .none
  | .serverShow => .all .server
  | .serverStart _ | .serverStop _ _ | .serverDelete _ => .only .server
  | .networkShow => .only .network
  | .storageShow => .all .storage
  | .storageDelete => .only .storage

def limit (a : Action) : Nat :=
  match a.mode with
  | .none => 1
  | _ => 10

end Action

end Muster
