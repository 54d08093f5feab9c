/-! What the service knows: the account and its servers, networks and storages. -/

namespace Muster

/-- The account that requests are made for. The credits are the bits of a double. -/
structure Account where
  username : String
  credits : UInt64
  deriving DecidableEq, Repr

structure Server where
  uuid : String
  title : String
  hostname : String
  zone : String
  state : String
  plan : String
  deriving DecidableEq, Repr

namespace Server

def started : String := "started"

def stopped : String := "stopped"

def isStarted (s : Server) : Bool := s.state == started

def isStopped (s : Server) : Bool := s.state == stopped

end Server

structure Network where
  uuid : String
  name : String
  kind : String
  zone : String
  deriving DecidableEq, Repr

/-- A storage, with its size in GiB. -/
structure Storage where
  uuid : String
  title : String
  size : Nat
  state : String
  kind : String
  zone : String
  deriving DecidableEq, Repr

/-- How a server is asked to shut down: by its own system, or by cutting the power. -/
inductive StopType where
  | soft
  | hard
  deriving DecidableEq, Repr, Inhabited

def StopType.name : StopType → String
  | .soft => "soft"
  | .hard => "hard"

def StopType.named? : String → Option StopType
  | "soft" => some .soft
  | "hard" => some .hard
  | _ => none

inductive Kind where
  | server
  | network
  | storage
  deriving DecidableEq, Repr

namespace Kind

def name : Kind → String
  | .server => "server"
  | .network => "network"
  | .storage => "storage"

def placeholder : Kind → String
  | .server => "UUID/Title/Hostname"
  | .network => "UUID/Name"
  | .storage => "UUID/Title"

def help (k : Kind) : String := "<" ++ k.placeholder ++ "...>"

def Resource : Kind → Type
  | .server => Server
  | .network => Network
  | .storage => Storage

def uuid : (k : Kind) → k.Resource → String
  | .server, s => s.uuid
  | .network, n => n.uuid
  | .storage, s => s.uuid

/-- The names of a resource that arguments are compared with, in order. -/
def names : (k : Kind) → k.Resource → List String
  | .server, s => [s.hostname, s.title]
  | .network, n => [n.name]
  | .storage, s => [s.title]

end Kind

end Muster
