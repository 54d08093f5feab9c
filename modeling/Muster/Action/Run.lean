import Muster.Action.Change
import Muster.Action.Show

/-! The programs of the built-in actions. -/

namespace Muster.Action

def run (p : WaitPolicy) : (a : Action) → a.mode.Known → String → Program Outcome
  | .accountShow, _, _ => look .account fun a => .details (accountDetails a)
  | .serverList, _, _ => look .servers fun l => .table (serverTable l)
  | .serverShow, _, uuid => look (.serverDetails uuid) fun s => .details (serverDetails s)
  | .serverStart waits, known, uuid =>
    starting.run p waits (Program.call (.startServer uuid)) known uuid
  | .serverStop how waits, known, uuid =>
    stopping.run p waits (Program.call (.stopServer uuid how p.timeout)) known uuid
  | .serverDelete withStorages, known, uuid =>
    delete ("Deleting server " ++ serverLabel known uuid)
      (Program.call (.deleteServer uuid withStorages))
  | .networkList, _, _ => look .networks fun l => .table (networkTable l)
  | .networkShow, known, uuid => lookUp (k := .network) known uuid networkDetails
  | .storageList, _, _ => look .storages fun l => .table (storageTable l)
  | .storageShow, known, uuid => lookUp (k := .storage) known uuid storageDetails
  | .storageDelete, known, uuid =>
    delete ("Deleting storage " ++ storageLabel known uuid) (Program.call (.deleteStorage uuid))

def command (p : WaitPolicy) (a : Action) : Command := ⟨a.name, a.limit, a.mode, a.run p⟩

end Muster.Action
