import Muster.Text.Blank
import Muster.Resource

/-! What can go wrong, and how each failure is told. -/

namespace Muster

/-- A request that failed on the way. It has a status if it was the one of an answer that made it fail. -/
structure HttpError where
  reason : String
  status? : Option Nat := none
  deriving DecidableEq, Repr

inductive ApiError where
  | http (e : HttpError)
  | status (code : Nat) (body : String)
  | invalidResponse (reason : String)
  deriving DecidableEq, Repr

namespace ApiError

def statusCode? : ApiError → Option Nat
  | .status code _ => some code
  | .http e => e.status?
  | .invalidResponse _ => none

def isUnauthorized (e : ApiError) : Bool := e.statusCode? == some 401

def message : ApiError → String
  | .http e => "http: " ++ e.reason
  | .status code body =>
    let text := Text.trim body
    if text.isEmpty then "status " ++ toString code
    else "status " ++ toString code ++ ": " ++ text
  | .invalidResponse reason => "invalid response: " ++ reason

end ApiError

inductive ConfigError where
  | io (reason : String)
  | toml (reason : String)
  | invalid (reason : String)
  deriving DecidableEq, Repr

def ConfigError.message : ConfigError → String
  | .io reason => "io: " ++ reason
  | .toml reason => "toml: " ++ reason
  | .invalid reason => "invalid config: " ++ reason

inductive ResolutionError where
  | ambiguous (arg : String) (count : Nat)
  | notFound (arg : String)
  | uninitialized (kind : String)
  deriving DecidableEq, Repr

def ResolutionError.message : ResolutionError → String
  | .ambiguous arg count =>
    "'" ++ arg ++ "' is ambiguous, found " ++ toString count ++ " matches"
  | .notFound arg => "nothing found matching '" ++ arg ++ "'"
  | .uninitialized kind => kind ++ " resolver has no cached data"

/-- A wait ended before its condition held. Times are in milliseconds. -/
inductive WaitError where
  | deadlineExceeded (target : String) (after : Nat)
  | cancelled (target : String)
  deriving DecidableEq, Repr

def WaitError.message : WaitError → String
  | .deadlineExceeded target after =>
    "timed out after " ++ toString (after / 1000) ++ "s waiting for " ++ target
  | .cancelled target => "cancelled while waiting for " ++ target

/-- A command, or one of its tasks, failed. A failure that its progress line shows is marked as handled. -/
inductive CommandError where
  | config (e : ConfigError)
  | api (e : ApiError)
  | resolution (e : ResolutionError)
  | action (text : String)
  | timeout (e : WaitError)
  | invalidCredentials
  | resolverUnavailable (e : ApiError)
  | handled (e : CommandError)
  deriving DecidableEq, Repr

namespace CommandError

def markHandled : CommandError → CommandError
  | .handled e => .handled e
  | e => .handled e

def isHandled : CommandError → Bool
  | .handled _ => true
  | _ => false

def root : CommandError → CommandError
  | .handled e => e.root
  | e => e

def marks : CommandError → Nat
  | .handled e => e.marks + 1
  | _ => 0

def isTimeout (e : CommandError) : Bool :=
  match e.root with
  | .timeout _ => true
  | _ => false

def isCancelled (e : CommandError) : Bool :=
  match e.root with
  | .timeout (.cancelled _) => true
  | _ => false

def message : CommandError → String
  | .config e => "config: " ++ e.message
  | .api e => "api: " ++ e.message
  | .resolution e => "cannot resolve argument: " ++ e.message
  | .action text => text
  | .timeout e => e.message
  | .invalidCredentials => "invalid credentials: check the configured username and password"
  | .resolverUnavailable e => "cannot create resolver: " ++ e.message
  | .handled e => e.message

end CommandError

end Muster
