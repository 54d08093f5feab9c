import Muster.Config
import Muster.Http.Base64
import Muster.Http.Exchange
import Muster.Json.Printer
import Muster.Json.Record
import Muster.World

/-! Calls to the service as requests, and the answers read as resources. -/

namespace Muster

namespace Json.Reader

def needed {ρ α : Type} (name : String) (value : Reader α) (put : α → ρ → ρ) : Field ρ :=
  ⟨name, true, put <$> value⟩

def optional {ρ α : Type} (name : String) (value : Reader α) (put : α → ρ → ρ) : Field ρ :=
  ⟨name, false, put <$> value⟩

def account : Reader Account :=
  record "Account"
    [needed "username" text fun v a => { a with username := v },
      optional "credits" real fun v a => { a with credits := v }] ⟨"", 0⟩

def server : Reader Server :=
  record "Server"
    [needed "uuid" text fun v s => { s with uuid := v },
      optional "title" text fun v s => { s with title := v },
      optional "hostname" text fun v s => { s with hostname := v },
      optional "zone" text fun v s => { s with zone := v },
      optional "state" text fun v s => { s with state := v },
      optional "plan" text fun v s => { s with plan := v }] ⟨"", "", "", "", "", ""⟩

def network : Reader Network :=
  record "Network"
    [needed "uuid" text fun v n => { n with uuid := v },
      optional "name" text fun v n => { n with name := v },
      optional "type" text fun v n => { n with kind := v },
      optional "zone" text fun v n => { n with zone := v }] ⟨"", "", "", ""⟩

def storage : Reader Storage :=
  record "Storage"
    [needed "uuid" text fun v s => { s with uuid := v },
      optional "title" text fun v s => { s with title := v },
      optional "size" count fun v s => { s with size := v },
      optional "state" text fun v s => { s with state := v },
      optional "type" text fun v s => { s with kind := v },
      optional "zone" text fun v s => { s with zone := v }] ⟨"", "", 0, "", "", ""⟩

def inside {α : Type} (envelope name : String) (value : Reader α) (blank : α) : Reader α :=
  record envelope [needed name value fun v _ => v] blank

/-- The list in an envelope of its own; a list that is missing is empty. -/
def listed {α : Type} (name : String) (item : Reader α) (title : String) : Reader (List α) :=
  record title [optional name (list item) fun l _ => l] []

end Json.Reader

namespace Client

open Http Json

def path : Call → String
  | .account => "account"
  | .servers => "server"
  | .networks => "network"
  | .storages => "storage"
  | .serverDetails uuid => "server/" ++ uuid
  | .startServer uuid => "server/" ++ uuid ++ "/start"
  | .stopServer uuid _ _ => "server/" ++ uuid ++ "/stop"
  | .deleteServer uuid _ => "server/" ++ uuid
  | .deleteStorage uuid => "storage/" ++ uuid

def method : Call → Method
  | .startServer _ | .stopServer .. => .post
  | .deleteServer .. | .deleteStorage _ => .delete
  | _ => .get

/-- The body of the request for a call. A server is given at least a second to stop. -/
def body? : Call → Option String
  | .stopServer _ how timeout =>
    some (Json.object [("stop_server", .object [("stop_type", .string how.name),
      ("timeout", .string (toString (max 1 timeout)))])]).compact
  | _ => none

def withoutSlashes (url : String) : String :=
  String.ofList (url.toList.reverse.dropWhile (· == '/')).reverse

def noRequest (address : String) : String :=
  "builder error" ++ match Url.foreign? address with
    | some text => " for url (" ++ text ++ ")"
    | none => ""

def request (api : Config.Api) (c : Call) : Except String Request := do
  let address := withoutSlashes api.url ++ "/" ++ path c
  let some url := Url.read? address | .error (noRequest address)
  let url := match c with
    | .deleteServer _ true => url.addQuery "storages".toList "1".toList
    | _ => url
  return { method := method c, url, body? := body? c,
           authorization? := some ("Basic " ++ base64 (api.username ++ ":" ++ api.password)) }

/-- What the body of an answer says. Nothing is expected of the answer to a deletion. -/
def decode (body : String) : (c : Call) → Except Fault c.Answer
  | .account => (Reader.inside "AccountEnvelope" "account" .account ⟨"", 0⟩).run body
  | .servers =>
    (Reader.inside "ServersEnvelope" "servers" (.listed "server" .server "ServerList") []).run body
  | .networks =>
    (Reader.inside "NetworksEnvelope" "networks" (.listed "network" .network "NetworkList") []).run body
  | .storages =>
    (Reader.inside "StoragesEnvelope" "storages" (.listed "storage" .storage "StorageList") []).run body
  | .serverDetails _ | .startServer _ | .stopServer .. =>
    (Reader.inside "ServerEnvelope" "server" .server ⟨"", "", "", "", "", ""⟩).run body
  | .deleteServer .. | .deleteStorage _ => .ok ()

def interpret (c : Call) : Except String Response → Except ApiError c.Answer
  | .error reason => .error (.http { reason })
  | .ok r =>
    if !r.isSuccess then .error (.status r.status r.text)
    else match decode r.text c with
      | .ok a => .ok a
      | .error fault => .error (.invalidResponse fault.message)

def perform {σ : Type} (api : Config.Api) (peer : Peer σ) (c : Call) (now : Nat) (s : σ) :
    (Except ApiError c.Answer × Nat) × σ :=
  match request api c with
  | .error reason => ((.error (.http { reason }), 0), s)
  | .ok q =>
    let ((result, count), s) := send peer q now s
    ((interpret c result, count), s)

/-- The service behind an address. A request takes a millisecond. -/
def backend {σ : Type} (api : Config.Api) (peer : Peer σ) : Backend σ where
  receive c now s :=
    let ((result, count), s) := perform api peer c now s
    ⟨count, s, fun _ s => (match result with
      | .ok a => .answer a
      | .error e => .failure e, s)⟩

end Client

end Muster
