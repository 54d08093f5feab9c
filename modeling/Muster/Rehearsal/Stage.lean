import Muster.World

/-! A service that plays a part: it keeps resources in memory and follows rules about which calls take
long, fail, or crash. -/

namespace Muster

def Call.text : Call → String
  | .account => "account"
  | .servers => "servers"
  | .networks => "networks"
  | .storages => "storages"
  | .serverDetails uuid => "server_details " ++ uuid
  | .startServer uuid => "start_server " ++ uuid
  | .stopServer uuid how timeout =>
    "stop_server " ++ uuid ++ (match how with | .soft => " Soft " | .hard => " Hard ") ++
      toString timeout
  | .deleteServer uuid withStorages =>
    "delete_server " ++ uuid ++ (if withStorages then " storages=true" else " storages=false")
  | .deleteStorage uuid => "delete_storage " ++ uuid

namespace Rehearsal

/-- A rule about the calls whose text is `call`, or begins with it if a star follows. It counts for
`times` calls, or all. -/
structure Rule where
  call : String
  times? : Option Nat := none
  delay : Nat := 0
  crash : Bool := false
  failure? : Option ApiError := none
  state? : Option String := none
  deriving Repr, Inhabited

/-- Something that happens to servers by itself: from a time on they have a state, or are gone. -/
structure Incident where
  time : Nat
  uuid : String
  state? : Option String
  deriving Repr

structure Stage where
  account : Account
  servers : List Server := []
  networks : List Network := []
  storages : List Storage := []
  rules : List Rule := []
  incidents : List Incident := []
  deriving Repr

def Rule.isAbout (r : Rule) (call : String) : Bool :=
  r.times? != some 0 &&
    (r.call == call ||
      (r.call.toList.getLast? == some '*' && r.call.toList.dropLast.isPrefixOf call.toList))

def takeRule (call : String) : List Rule → Option Rule × List Rule
  | [] => (none, [])
  | r :: rs =>
    if r.isAbout call then (some r, { r with times? := r.times?.map (· - 1) } :: rs)
    else
      let (found, rs) := takeRule call rs
      (found, r :: rs)

namespace Stage

def setState (uuid state : String) : List Server → Option Server × List Server
  | [] => (none, [])
  | s :: ss =>
    if s.uuid = uuid then (some { s with state }, { s with state } :: ss)
    else
      let (found, ss) := setState uuid state ss
      (found, s :: ss)

def suffer (servers : List Server) (i : Incident) : List Server :=
  match i.state? with
  | none => servers.filter fun s => s.uuid != i.uuid
  | some state => servers.map fun s => if s.uuid = i.uuid then { s with state } else s

def catchUp (s : Stage) (now : Nat) : Stage :=
  { s with
    servers := (s.incidents.filter fun i => i.time ≤ now).foldl suffer s.servers
    incidents := s.incidents.filter fun i => !(i.time ≤ now) }

def noServer : ApiError := .status 404 "SERVER_NOT_FOUND"

def noStorage : ApiError := .status 404 "STORAGE_NOT_FOUND"

def enter (s : Stage) (uuid state : String) : Reply Server × Stage :=
  match setState uuid state s.servers with
  | (some server, servers) => (.answer server, { s with servers })
  | (none, _) => (.failure noServer, s)

/-- What a call comes to that no rule stops. A rule may name the state that a server ends in. -/
def answer (s : Stage) (state? : Option String) : (c : Call) → Reply c.Answer × Stage
  | .account => (.answer s.account, s)
  | .servers => (.answer s.servers, s)
  | .networks => (.answer s.networks, s)
  | .storages => (.answer s.storages, s)
  | .serverDetails uuid =>
    match s.servers.find? fun v => v.uuid == uuid with
    | some server => (.answer server, s)
    | none => (.failure noServer, s)
  | .startServer uuid => s.enter uuid (state?.getD Server.started)
  | .stopServer uuid _ _ => s.enter uuid (state?.getD Server.stopped)
  | .deleteServer uuid _ =>
    if s.servers.any fun v => v.uuid == uuid then
      (.answer (), { s with servers := s.servers.filter fun v => v.uuid != uuid })
    else (.failure noServer, s)
  | .deleteStorage uuid =>
    if s.storages.any fun v => v.uuid == uuid then
      (.answer (), { s with storages := s.storages.filter fun v => v.uuid != uuid })
    else (.failure noStorage, s)

def finish (rule? : Option Rule) (c : Call) (now : Nat) (s : Stage) : Reply c.Answer × Stage :=
  let rule := rule?.getD { call := "" }
  if rule.crash then (.crash, s)
  else match rule.failure? with
    | some e => (.failure e, s)
    | none => (s.catchUp now).answer rule.state? c

def backend : Backend Stage where
  receive c _ s :=
    let (rule?, rules) := takeRule c.text s.rules
    ⟨(rule?.map (·.delay)).getD 0, { s with rules }, finish rule? c⟩

end Stage

end Rehearsal

end Muster
