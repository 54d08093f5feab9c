import Muster.Error
import Muster.Resource

/-! The calls that the service answers. -/

namespace Muster

/-- A call. The timeout for stopping a server is in seconds. -/
inductive Call where
  | account
  | servers
  | networks
  | storages
  | serverDetails (uuid : String)
  | startServer (uuid : String)
  | stopServer (uuid : String) (how : StopType) (timeout : Nat)
  | deleteServer (uuid : String) (withStorages : Bool)
  | deleteStorage (uuid : String)
  deriving DecidableEq, Repr

def Call.Answer : Call → Type
  | .account => Account
  | .servers => List Server
  | .networks => List Network
  | .storages => List Storage
  | .serverDetails _ => Server
  | .startServer _ => Server
  | .stopServer _ _ _ => Server
  | .deleteServer _ _ => Unit
  | .deleteStorage _ => Unit

def Kind.listing : Kind → Call
  | .server => .servers
  | .network => .networks
  | .storage => .storages

def Kind.ofListing : (k : Kind) → k.listing.Answer → List k.Resource
  | .server, l => l
  | .network, l => l
  | .storage, l => l

inductive Reply (α : Type) where
  | answer (a : α)
  | failure (e : ApiError)
  | crash

end Muster
