import Muster.Dispatch

/-! A provider of resources that arguments are looked up in, in use over time. It keeps what was listed
last, and gives out a resolver with each listing, which keeps to that listing. -/

namespace Muster

/-- A provider with the service that it lists from, and the listings of the resolvers that it gave out, in
that order. -/
structure Provider (σ : Type) (k : Kind) where
  world : World σ
  cache : Snapshot k := {}
  resolvers : List (List k.Resource) := []

namespace Provider

/-- What a provider may be asked for. Meanwhile the service may be changed by others. Resolvers are
numbered from zero. -/
inductive Request (σ : Type) where
  | fetch
  | alter (change : σ → σ)
  | find (uuid : String)
  | resolve (arg : String)
  | consult (resolver : Nat) (arg : String)

/-- What comes of a request: for a fetch the number of a resolver, or nothing if the service crashed; for a
resolver what the argument may stand for, if there is such a resolver. -/
inductive Answer (k : Kind) where
  | fetched (result? : Option (Except ApiError Nat))
  | altered
  | found (result : Except ResolutionError k.Resource)
  | resolved (result : Except ResolutionError String)
  | consulted (candidates? : Option Candidates)

variable {σ : Type} {k : Kind}

def store (p : Provider σ k) (items : List k.Resource) : Provider σ k :=
  { p with cache := ⟨some items⟩, resolvers := p.resolvers ++ [items] }

/-- Lists the resources. If that fails, what was known stays. -/
def fetch (b : Backend σ) (p : Provider σ k) : Answer k × Provider σ k :=
  match runAlone b none (Dispatch.fetch k) p.world with
  | (some (.ok items), world) =>
    (.fetched (some (.ok p.resolvers.length)), { p.store items with world })
  | (some (.error e), world) => (.fetched (some (.error e)), { p with world })
  | (none, world) => (.fetched none, { p with world })

def answer (b : Backend σ) (p : Provider σ k) : Request σ → Answer k × Provider σ k
  | .fetch => p.fetch b
  | .alter change =>
    (.altered, { p with world := { p.world with state := change p.world.state } })
  | .find uuid => (.found (p.cache.find uuid), p)
  | .resolve arg => (.resolved (p.cache.resolve arg), p)
  | .consult i arg =>
    (.consulted (p.resolvers[i]?.map fun items => .among k items arg), p)

/-- The answers to several requests, and what becomes of the provider. -/
def answers (b : Backend σ) : Provider σ k → List (Request σ) → List (Answer k) × Provider σ k
  | p, [] => ([], p)
  | p, q :: qs =>
    let (a, p) := p.answer b q
    let (as, p) := answers b p qs
    (a :: as, p)

end Provider

end Muster
