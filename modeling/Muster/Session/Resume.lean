import Muster.Session

/-! A run that is carried out bit by bit: it is repeated with the answers that are known so far, up to the
first request that none is known for. -/

namespace Muster

/-- The answers that are known, where none stands for a request that failed; and the first request
without one, with its time. -/
structure Post where
  known : List (Option Http.Response)
  asked? : Option (Nat × Http.Request) := none
  deriving Repr

def Post.peer : Http.Peer Post := fun q now p =>
  match p.known with
  | answer? :: known => (answer?, { p with known })
  | [] => (none, { p with asked? := p.asked? <|> some (now, q) })

namespace Surroundings

def variableNames : List String :=
  [Config.usernameVariable, Config.passwordVariable, Config.urlVariable, Config.timeoutVariable,
    configFolderVariable, homeVariable, noColorVariable]

def paths (place : Surroundings) (words : List String) : List String :=
  let asked := match CommandLine.parse words with
    | .ok i => i.given.config?.toList
    | .error _ => []
  asked ++ Config.fileName :: place.farPath?.toList

end Surroundings

namespace Session

inductive Progress where
  | asks (time : Nat) (q : Http.Request)
  | ends (t : Transcript)

def resume (place : Surroundings) (words : List String) (known : List (Option Http.Response)) :
    Progress :=
  match run place Post.peer words ⟨known, none⟩ with
  | (t, p) =>
    match p.asked? with
    | some (time, q) => .asks time q
    | none => .ends t

def patience (place : Surroundings) (words : List String) : Nat :=
  match CommandLine.parse words with
  | .error _ => 0
  | .ok i =>
    match configure place i.given with
    | .ok c => c.api.timeout
    | .error _ => 0

end Session

end Muster
