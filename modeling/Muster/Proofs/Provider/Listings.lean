import Muster.Proofs.Dispatch.Arguments
import Muster.Provider

/-! The lists that the service gives a provider over time. Main statement: after any requests the provider
keeps the last of these lists, and its resolvers keep all of them, each its own. -/

namespace Muster

variable {σ : Type} {k : Kind}

namespace Provider

/-- The list that the service gives on a request, if it gives one, and what becomes of the service. -/
def listing (b : Backend σ) (k : Kind) (w : World σ) :
    Request σ → Option (List k.Resource) × World σ
  | .fetch =>
    match runAlone b none (Program.call k.listing) w with
    | (some (.ok l), w) => (some (k.ofListing l), w)
    | (_, w) => (none, w)
  | .alter change => (none, { w with state := change w.state })
  | _ => (none, w)

/-- All the lists that the service gives on several requests. -/
def listings (b : Backend σ) (k : Kind) :
    World σ → List (Request σ) → List (List k.Resource) × World σ
  | w, [] => ([], w)
  | w, q :: qs =>
    let (items?, w) := listing b k w q
    let (lists, w) := listings b k w qs
    (items?.toList ++ lists, w)

variable {b : Backend σ}

theorem listings_append (w : World σ) (qs rs : List (Request σ)) :
    listings b k w (qs ++ rs) =
      ((listings b k w qs).1 ++ (listings b k (listings b k w qs).2 rs).1,
        (listings b k (listings b k w qs).2 rs).2) := by
  induction qs generalizing w with
  | nil => rfl
  | cons q qs ih => simp only [List.cons_append, listings, ih, List.append_assoc]

section Answers

variable (p : Provider σ k)

theorem answers_append (qs rs : List (Request σ)) :
    p.answers b (qs ++ rs) =
      ((p.answers b qs).1 ++ ((p.answers b qs).2.answers b rs).1,
        ((p.answers b qs).2.answers b rs).2) := by
  induction qs generalizing p with
  | nil => rfl
  | cons q qs ih => simp only [List.cons_append, answers, ih]

theorem length_answers (qs : List (Request σ)) : (p.answers b qs).1.length = qs.length := by
  induction qs generalizing p with
  | nil => rfl
  | cons q qs ih => simp only [answers, List.length_cons, ih]

/-- The answer to a request depends on what became of the provider before. -/
theorem answer_at (before after : List (Request σ)) (q : Request σ) :
    (p.answers b (before ++ q :: after)).1[before.length]? =
      some ((p.answers b before).2.answer b q).1 := by
  have hlength : (p.answers b before).1.length = before.length := length_answers p before
  rw [answers_append, List.getElem?_append_right (Nat.le_of_eq hlength), hlength, Nat.sub_self]
  rfl

/-- Where a provider stands after it was given some lists. -/
def given (lists : List (List k.Resource)) (w : World σ) : Provider σ k where
  world := w
  cache := ⟨lists.getLast?.or p.cache.items⟩
  resolvers := p.resolvers ++ lists

theorem given_given (lists more : List (List k.Resource)) (w w' : World σ) :
    (p.given lists w).given more w' = p.given (lists ++ more) w' := by
  simp only [given, List.append_assoc, List.getLast?_append, Option.or_assoc]

theorem given_nil (w : World σ) : p.given [] w = { p with world := w } := by
  simp only [given, List.getLast?_nil, Option.none_or, List.append_nil]

/-- What becomes of the provider on one request. -/
theorem answer_eq_given (q : Request σ) :
    (p.answer b q).2 = p.given (listing b k p.world q).1.toList (listing b k p.world q).2 := by
  cases q with
  | fetch =>
    simp only [answer, fetch, listing, Dispatch.runAlone_fetch]
    rcases runAlone b none (Program.call k.listing) p.world with ⟨_ | _ | l, w⟩
    · exact (p.given_nil w).symm
    · exact (p.given_nil w).symm
    · rfl
  | alter change => exact (p.given_nil _).symm
  | _ => exact (p.given_nil _).symm

/-- A provider keeps the lists of the service, in order, and looks things up in the last of them. -/
theorem answers_eq_given (qs : List (Request σ)) :
    (p.answers b qs).2 =
      p.given (listings b k p.world qs).1 (listings b k p.world qs).2 := by
  induction qs generalizing p with
  | nil => exact (p.given_nil p.world).symm
  | cons q qs ih =>
    simp only [answers, listings]
    rw [ih, answer_eq_given, given_given]
    rfl

end Answers

end Provider

end Muster
