import Muster.About
import Muster.Error
import Muster.Output
import Muster.Text.Digits
import Muster.Toml.Reader
import Muster.Wait

/-! The configuration: how to reach the service, how to report, and how to wait. Each setting is decided
on its own, by the environment, by the one file that is read, or by its default. -/

namespace Muster

/-- How to reach the service. The timeout of a request is in seconds. -/
structure Config.Api where
  url : String := "https://api.upcloud.com/1.3"
  username : String := ""
  password : String := ""
  timeout : Nat := 60
  deriving DecidableEq, Repr

structure Config.Report where
  color : Bool := true
  format : Format := .human
  deriving DecidableEq, Repr

/-- How to wait: the milliseconds between checks, and the greatest span in seconds. -/
structure Config.Waiting where
  interval : Nat := 1000
  timeout : Nat := 300
  deriving DecidableEq, Repr

structure Config where
  api : Config.Api := {}
  report : Config.Report := {}
  waiting : Config.Waiting := {}
  deriving DecidableEq, Repr

namespace Config

/-- What was written for the named settings of a group. An array gives them in order, and a moment in
time counts as a group without any of them. -/
def record? (names : List String) : Toml → Option (List (Option Toml))
  | .table _ _ fields => some (names.map fun name => fields.lookup name)
  | .inline fields => some (names.map fun name => fields.lookup name)
  | .array items => some ((List.range names.length).map (items[·]?))
  | .tables items =>
    some ((List.range names.length).map fun i => items[i]?.map (.table false false ·))
  | .moment => some (names.map fun _ => none)
  | _ => none

def orDefault {α : Type} (default : α) (read? : Toml → Option α) : Option Toml → Option α
  | none => some default
  | some t => read? t

def text? : Toml → Option String
  | .text s => some s
  | _ => none

def count? : Toml → Option Nat
  | .whole (.ofNat n) => some n
  | _ => none

def bool? : Toml → Option Bool
  | .bool b => some b
  | _ => none

def isEmpty : Toml → Bool
  | .table _ _ [] => true
  | .inline [] => true
  | .array [] => true
  | _ => false

/-- A format: its name, or a table with nothing under its name. -/
def format? : Toml → Option Format
  | .text s => Format.named? s
  | .table _ _ [(name, value)] => if isEmpty value then Format.named? name else none
  | .inline [(name, value)] => if isEmpty value then Format.named? name else none
  | _ => none

def Api.ofToml? (t : Toml) : Option Api := do
  match ← record? ["url", "username", "password", "timeout_secs"] t with
  | [url, username, password, timeout] =>
    let default : Api := {}
    return ⟨← orDefault default.url text? url, ← orDefault default.username text? username,
      ← orDefault default.password text? password, ← orDefault default.timeout count? timeout⟩
  | _ => none

def Report.ofToml? (t : Toml) : Option Report := do
  match ← record? ["color", "output"] t with
  | [color, format] =>
    let default : Report := {}
    return ⟨← orDefault default.color bool? color, ← orDefault default.format format? format⟩
  | _ => none

def Waiting.ofToml? (t : Toml) : Option Waiting := do
  match ← record? ["wait_interval_ms", "wait_timeout_secs"] t with
  | [interval, timeout] =>
    let default : Waiting := {}
    return ⟨← orDefault default.interval count? interval,
      ← orDefault default.timeout count? timeout⟩
  | _ => none

def ofFields? (fields : Toml.Fields) : Option Config := do
  let api ← orDefault {} Api.ofToml? (fields.lookup "api")
  let report ← orDefault {} Report.ofToml? (fields.lookup "display")
  let waiting ← orDefault {} Waiting.ofToml? (fields.lookup "execution")
  return { api, report, waiting }

def ofText (text : String) : Except ConfigError Config :=
  match (Toml.read? text).bind ofFields? with
  | some config => .ok config
  | none => .error (.toml "the document is not a configuration")

inductive File where
  | missing
  | directory
  | unreadable (reason : String)
  | content (bytes : ByteArray)

def File.read : File → Except String String
  | .missing => .error "No such file or directory (os error 2)"
  | .directory => .error "Is a directory (os error 21)"
  | .unreadable reason => .error reason
  | .content bytes =>
    match String.fromUTF8? bytes with
    | some text => .ok text
    | none => .error "stream did not contain valid UTF-8"

/-- The text of the file that counts: the one asked for, or else the first of the near one and the far
one that can be read, or else none. -/
def choose (asked? : Option File) (near far : File) : Except ConfigError String :=
  match asked? with
  | some file =>
    match file.read with
    | .ok text => .ok text
    | .error reason => .error (.io reason)
  | none =>
    match near.read, far.read with
    | .ok text, _ => .ok text
    | .error _, .ok text => .ok text
    | .error _, .error _ => .ok ""

def fileName : String := programName ++ ".toml"

def usernameVariable : String := "CLOUDCTL_USERNAME"

def passwordVariable : String := "CLOUDCTL_PASSWORD"

def urlVariable : String := "CLOUDCTL_API_URL"

def timeoutVariable : String := "CLOUDCTL_CLIENT_TIMEOUT"

def timeoutOf (value : String) : Except ConfigError Nat :=
  match Text.count? (Text.trim value).toList with
  | some seconds => .ok (max 1 seconds)
  | none => .error (.invalid ("invalid " ++ timeoutVariable ++ " value `" ++ value ++
      "`: expected positive integer seconds"))

/-- The configuration with the settings of the environment in place of its own. A blank address does not
count. -/
def override (c : Config) (env : String → Option String) : Except ConfigError Config := do
  let url := (env urlVariable).filter fun url => !(Text.trim url).isEmpty
  let timeout ← match env timeoutVariable with
    | some value => timeoutOf value
    | none => .ok c.api.timeout
  return { c with
    api :=
      { url := url.getD c.api.url
        username := (env usernameVariable).getD c.api.username
        password := (env passwordVariable).getD c.api.password
        timeout } }

def load (asked? : Option File) (near far : File) (env : String → Option String) :
    Except ConfigError Config := do
  (← ofText (← choose asked? near far)).override env

/-- Whether there is a name and a password to log in with. A blank name is none. -/
def hasCredentials (c : Config) : Bool :=
  !(Text.trim c.api.username).isEmpty && !c.api.password.isEmpty

def requireCredentials (c : Config) : Except ConfigError Unit :=
  if c.hasCredentials then .ok ()
  else .error (.invalid ("missing API credentials: set [api] username/password in " ++ fileName ++
    " or the " ++ usernameVariable ++ " and " ++ passwordVariable ++ " environment variables"))

def waitInterval (c : Config) : Nat := max 1 c.waiting.interval

def waitTimeout (c : Config) : Nat := max 1 c.waiting.timeout

def waitPolicy (c : Config) (interrupts : Interrupts) : WaitPolicy :=
  .ofConfig c.waiting.interval c.waiting.timeout interrupts

end Config

end Muster
