import Muster.Action
import Muster.Decimal.Places

/-! The actions that only look: the account, lists of resources, and the details of one resource. -/

namespace Muster.Action

def writeCredits (credits : UInt64) : String := Decimal.writePlaces credits 2

def accountDetails (a : Account) : Details :=
  ⟨"Account", [⟨"username", "Username", a.username⟩,
    ⟨"credits", "Credits", writeCredits a.credits⟩]⟩

def serverTable (servers : List Server) : Table where
  columns := [⟨"uuid", "UUID"⟩, ⟨"hostname", "Hostname"⟩, ⟨"plan", "Plan"⟩, ⟨"zone", "Zone"⟩,
    ⟨"state", "State"⟩]
  rows := servers.map fun s => [s.uuid, s.hostname, s.plan, s.zone, s.state]

def serverDetails (s : Server) : Details :=
  ⟨"Server", [⟨"uuid", "UUID", s.uuid⟩, ⟨"title", "Title", s.title⟩,
    ⟨"hostname", "Hostname", s.hostname⟩, ⟨"zone", "Zone", s.zone⟩, ⟨"plan", "Plan", s.plan⟩,
    ⟨"state", "State", s.state⟩]⟩

def networkTable (networks : List Network) : Table where
  columns := [⟨"uuid", "UUID"⟩, ⟨"name", "Name"⟩, ⟨"type", "Type"⟩, ⟨"zone", "Zone"⟩]
  rows := networks.map fun n => [n.uuid, n.name, n.kind, n.zone]

def networkDetails (n : Network) : Details :=
  ⟨"Network", [⟨"uuid", "UUID", n.uuid⟩, ⟨"name", "Name", n.name⟩, ⟨"type", "Type", n.kind⟩,
    ⟨"zone", "Zone", n.zone⟩]⟩

def storageTable (storages : List Storage) : Table where
  columns := [⟨"uuid", "UUID"⟩, ⟨"title", "Title"⟩, ⟨"type", "Type"⟩, ⟨"size", "Size (GiB)"⟩,
    ⟨"state", "State"⟩, ⟨"zone", "Zone"⟩]
  rows := storages.map fun s => [s.uuid, s.title, s.kind, toString s.size, s.state, s.zone]

def storageDetails (s : Storage) : Details :=
  ⟨"Storage", [⟨"uuid", "UUID", s.uuid⟩, ⟨"title", "Title", s.title⟩, ⟨"type", "Type", s.kind⟩,
    ⟨"size", "Size (GiB)", toString s.size⟩, ⟨"state", "State", s.state⟩,
    ⟨"zone", "Zone", s.zone⟩]⟩

def look (c : Call) (view : c.Answer → Output) : Program Outcome := do
  return match ← Program.call c with
    | .ok a => .ok (view a)
    | .error e => .error (.api e)

def lookUp {k : Kind} (known : Snapshot k) (uuid : String) (view : k.Resource → Details) :
    Program Outcome :=
  return match known.find uuid with
    | .ok r => .ok (.details (view r))
    | .error e => .error (.resolution e)

end Muster.Action
