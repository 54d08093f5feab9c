import Muster.Action
import Muster.Queue
import Muster.Task

/-! Running a command on arguments: they are looked up in one listing, each value found gets a task, and
the results are gathered in the order in which the tasks end. -/

namespace Muster

structure Resolved where
  arg : String := ""
  value : String := ""
  error? : Option ResolutionError := none
  deriving DecidableEq, Repr, Inhabited

structure TaskResult where
  job : Nat
  argument : Resolved
  outcome : Outcome

def Outcome.isError : Outcome → Bool
  | .ok _ => false
  | .error _ => true

def TaskResult.output (r : TaskResult) : Output :=
  match r.outcome with
  | .ok o => o
  | .error e => .error r.argument.arg r.argument.value e.message

namespace Dispatch

/-- A failure of the call that comes before all tasks. Refused credentials have a failure of their
own. -/
def refuse (otherwise : ApiError → CommandError) (e : ApiError) : CommandError :=
  if e.isUnauthorized then .invalidCredentials else otherwise e

def fetch (k : Kind) : Program (Except ApiError (List k.Resource)) := do
  return match ← Program.call k.listing with
    | .ok l => .ok (k.ofListing l)
    | .error e => .error e

/-- Lists the resources that arguments are looked up in. There must be an argument. -/
def survey (k : Kind) (args : List String) :
    Program (Except CommandError (List k.Resource)) := do
  if args.isEmpty then
    return .error (.action ("at least one argument is required: " ++ k.help))
  return match ← fetch k with
    | .ok l => .ok l
    | .error e => .error (refuse .resolverUnavailable e)

def resolveOnly (k : Kind) (items : List k.Resource) (arg : String) : Resolved :=
  match (Candidates.among k items arg).only with
  | .ok uuid => { arg, value := uuid }
  | .error e => { arg, error? := some e }

def resolveAll (k : Kind) (items : List k.Resource) (arg : String) : List Resolved :=
  match (Candidates.among k items arg).all with
  | .ok uuids => uuids.map fun uuid => { arg, value := uuid }
  | .error e => [{ arg, error? := some e }]

def search (k : Kind) (args : List String) (find : List k.Resource → List Resolved) :
    Program (Except CommandError (Snapshot k × List Resolved)) := do
  return match ← survey k args with
    | .ok items => .ok (⟨some items⟩, find items)
    | .error e => .error e

def resolve (args : List String) :
    (m : Mode) → Program (Except CommandError (m.Known × List Resolved))
  | .none => do
    return match ← Program.call .account with
      | .ok _ => .ok ((), [])
      | .error e => .error (refuse .api e)
  | .only k => search k args fun items => args.map (resolveOnly k items)
  | .all k => search k args fun items => args.flatMap (resolveAll k items)

def label (name : String) (arg : Resolved) : String :=
  if arg.arg.isEmpty then name else name ++ " " ++ arg.arg

def report (message : String) : Outcome → Program Outcome
  | .ok output => do
    if !(← Program.perform .hasEnded) then Task.success (message ++ ": done")
    return .ok output
  | .error e => do
    if e.isHandled then return .error e
    else return .error (← Task.fail (message ++ ": failed") e)

/-- The task for one argument. There is no action on an argument that stands for nothing. -/
def task (c : Command) (known : c.mode.Known) (arg : Resolved) : Program Outcome := do
  let message := label c.name arg
  Task.update message
  match arg.error? with
  | some e => return .error (← Task.fail message (.resolution e))
  | none =>
    Program.perform (.invoke arg.value)
    report message (← c.action known arg.value)

def lost : CommandError := (CommandError.action "task ended without a result").markHandled

def sent (args : List Resolved) (results : List (Nat × Option Outcome)) : List TaskResult :=
  results.filterMap fun (job, outcome?) =>
    outcome?.map fun outcome => ⟨job, args.getD job default, outcome⟩

def missing (args : List Resolved) (given : List TaskResult) : List TaskResult :=
  ((List.range args.length).filter fun job => !(given.any (·.job == job))).map fun job =>
    ⟨job, args.getD job default, .error lost⟩

/-- The results sent, up to one for each task, and the failures of those that sent none. -/
def gather (args : List Resolved) (results : List (Nat × Option Outcome)) : List TaskResult :=
  let given := (sent args results).take args.length
  if given.length < args.length then given ++ missing args given else given

/-- Without arguments there is one task for an empty value. -/
def orEmpty (args : List Resolved) : List Resolved := if args.isEmpty then [{}] else args

/-- What a command came to: it was called off before any task, or its tasks ran. A crash before any
task is neither. -/
inductive Ending (σ : Type) where
  | crashed (w : World σ)
  | aborted (e : CommandError) (w : World σ)
  | finished (results : List TaskResult) (q : Queue σ Outcome)

def run {σ : Type} (b : Backend σ) (c : Command) (args : List String) (world : World σ)
    (display : Display) : Ending σ :=
  match runAlone b none (resolve args c.mode) world with
  | (none, w) => .crashed w
  | (some (.error e), w) => .aborted e w
  | (some (.ok (known, found)), w) =>
    let args := orEmpty found
    let q := Queue.run b c.limit (args.map (task c known)) w display
    .finished (gather args q.results) q

def interruptedCode : Nat := 100

def errorCode : Nat := 1

def failedCount (results : List TaskResult) : Nat :=
  results.countP fun r => r.outcome.isError

/-- The exit code that tells how many tasks failed, up to what a code can tell. -/
def exitCode (results : List TaskResult) : Nat := min (failedCount results) 99

def wasInterrupted (results : List TaskResult) : Bool :=
  results.any fun r =>
    match r.outcome with
    | .ok _ => false
    | .error e => e.isCancelled

end Dispatch

end Muster
