import Muster.Error
import Muster.Match

/-! The resources that one argument may stand for. -/

namespace Muster

/-- The identifiers that an argument fits, each with how well, in the order in which they were found. -/
structure Candidates where
  arg : String
  found : List (String × Strength) := []
  deriving Repr

namespace Candidates

def raise (uuid : String) (s : Strength) : List (String × Strength) → List (String × Strength)
  | [] => [(uuid, s)]
  | f :: fs => if f.1 = uuid then (f.1, max f.2 s) :: fs else f :: raise uuid s fs

def add (c : Candidates) (uuid : String) (s : Strength) : Candidates :=
  if s = .none then c else { c with found := raise uuid s c.found }

def strongest (c : Candidates) : Strength :=
  c.found.foldl (fun m f => max m f.2) .none

def best (c : Candidates) : List String :=
  (c.found.filter fun f => f.2 == c.strongest).map (·.1)

def only (c : Candidates) : Except ResolutionError String :=
  match c.best with
  | [] => .error (.notFound c.arg)
  | [uuid] => .ok uuid
  | more => .error (.ambiguous c.arg more.length)

def all (c : Candidates) : Except ResolutionError (List String) :=
  match c.best with
  | [] => .error (.notFound c.arg)
  | uuids => .ok uuids

def among (k : Kind) (resources : List k.Resource) (arg : String) : Candidates :=
  resources.foldl (fun c r =>
    ((k.names r).foldl (fun c name => c.add (k.uuid r) (.ofName arg name)) c).add (k.uuid r)
      (.ofIdentifier arg (k.uuid r))) { arg }

end Candidates

/-- What was listed last of one kind of resource. Nothing was before the first listing. -/
structure Snapshot (k : Kind) where
  items : Option (List k.Resource) := none

namespace Snapshot

variable {k : Kind}

def load (s : Snapshot k) : Except ResolutionError (List k.Resource) :=
  match s.items with
  | none => .error (.uninitialized k.name)
  | some items => .ok items

def find (s : Snapshot k) (uuid : String) : Except ResolutionError k.Resource := do
  match (← s.load).find? fun r => k.uuid r == uuid with
  | none => .error (.notFound uuid)
  | some r => .ok r

def resolve (s : Snapshot k) (arg : String) : Except ResolutionError String := do
  (Candidates.among k (← s.load) arg).only

end Snapshot

end Muster
