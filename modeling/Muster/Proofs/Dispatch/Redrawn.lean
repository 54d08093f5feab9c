import Muster.Action.Run
import Muster.Proofs.Dispatch.Results
import Muster.Proofs.Queue.Redrawn

/-! Commands whose progress is shown in different ways. Main statement: what a command comes to, and each
call that it makes on the way and when, does not depend on how its progress is shown, or on whether that
can be written. -/

namespace Muster

variable {σ α : Type}

/-- What can be reached is reached by choices that leave the display alone. -/
theorem Running.follow_of_reachable {b : Backend σ} {r r' : Running σ α} (h : Reachable b r r') :
    ∃ choices : List Choice, r.follow b (choices.map fun c => (c, id)) = some r' := by
  induction h using Relation.ReflTransGen.head_induction_on with
  | refl => exact ⟨[], rfl⟩
  | head hstep _ ih =>
    obtain ⟨c, hc⟩ := hstep
    obtain ⟨choices, hfollow⟩ := ih
    refine ⟨c :: choices, ?_⟩
    rw [List.map_cons, follow, hc]
    exact hfollow

namespace Dispatch

/-- What a command came to, for the one who asked for it. -/
inductive Verdict where
  | crashed
  | aborted (e : CommandError)
  | finished (results : List TaskResult)

def Ending.verdict : Ending σ → Verdict
  | .crashed _ => .crashed
  | .aborted e _ => .aborted e
  | .finished results _ => .finished results

def Ending.world : Ending σ → World σ
  | .crashed w => w
  | .aborted _ w => w
  | .finished _ q => q.world

variable {b : Backend σ} {c : Command} {args : List String} {world : World σ} {d d' : Display}

theorem verdict_redrawn : (run b c args world d').verdict = (run b c args world d).verdict ∧
    (run b c args world d').world = (run b c args world d).world := by
  rcases hresolve : runAlone b none (resolve args c.mode) world with ⟨_ | e | ⟨known, found⟩, w⟩
  · simp only [run, hresolve, and_self]
  · simp only [run, hresolve, and_self]
  · have halike := Queue.run_alike b c.limit ((orEmpty found).map (task c known)) w d d'
    simp only [run, hresolve, Ending.verdict, Ending.world, halike.results, halike.world, and_self]

/-- A command ends with the same failure, or the same results in the same order, and leaves the same
world, with all that happened in it and when, whatever its progress is shown on. In whichever order its
tasks run, the same choices lead to the same: what is shown may change after each, as it does when a
terminal gets another size or a write fails. -/
theorem same_for_every_display (b : Backend σ) (c : Command) (args : List String)
    (world : World σ) (d d' : Display) :
    (run b c args world d').verdict = (run b c args world d).verdict ∧
    (run b c args world d').world = (run b c args world d).world ∧
    ∀ (known : c.mode.Known) (found : List Resolved) (w : World σ),
      runAlone b none (resolve args c.mode) world = (some (.ok (known, found)), w) →
      let jobs := orEmpty found
      let start (d : Display) := Running.start c.limit (jobs.map (task c known)) w d
      (∃ (q : Queue σ Outcome) (choices : List Choice),
        run b c args world d = .finished (gather jobs q.results) q ∧
        (start d).follow b (choices.map fun c => (c, id)) = some ⟨.returned, q⟩) ∧
      ∀ (steps steps' : List (Choice × (Display → Display))) (r : Running σ Outcome),
        steps.map (·.1) = steps'.map (·.1) → (start d).follow b steps = some r →
        ∃ r', (start d').follow b steps' = some r' ∧ r'.position = r.position ∧
          gather jobs r'.queue.results = gather jobs r.queue.results ∧
          r'.queue.world = r.queue.world := by
  refine ⟨verdict_redrawn.1, verdict_redrawn.2, fun known found w hresolve => ?_⟩
  intro jobs start
  constructor
  · obtain ⟨q, hreach, hrun⟩ : ∃ q, Running.Reachable b (start d) ⟨.returned, q⟩ ∧
        run b c args world d = .finished (gather jobs q.results) q := run_of_resolved hresolve
    obtain ⟨choices, hfollow⟩ := Running.follow_of_reachable hreach
    exact ⟨q, choices, hrun, hfollow⟩
  · intro steps steps' r hsteps hr
    have hstart : (start d).Alike (start d') := ⟨rfl, d', rfl⟩
    obtain ⟨r', hr', halike⟩ := some_of_rel (Running.alike_follow (b := b) hsteps hstart) hr
    exact ⟨r', hr', halike.position, by rw [halike.queue.results], halike.queue.world⟩

/-- An account is shown. One log takes lines back and cannot be written at all, the other only appends;
and while the task waits for an answer, one terminal gets another size. -/
theorem same_for_every_display_unwritable :
    let b : Backend Unit := ⟨fun c _ s => ⟨250, s, fun _ s =>
      (match c with
        | .account => .answer ⟨"name", 0⟩
        | _ => .crash, s)⟩⟩
    let c : Command := Action.accountShow.command (.ofConfig 1 1 {})
    let d : Display := { config := { appendOnly := false }, sink := { room? := some 0 } }
    let d' : Display := {}
    let start (w : World Unit) (d : Display) := Running.start c.limit [task c () {}] w d
    let choices : List Choice := [.proceed, .enter 0, .act 0, .act 0, .act 0, .proceed, .tick]
    let resized (d : Display) : Display := { d with columns := 20 }
    (run b c [] { state := () } d').verdict = (run b c [] { state := () } d).verdict ∧
    (run b c [] { state := () } d').world = (run b c [] { state := () } d).world ∧
    ∃ (w : World Unit) (r r' : Running Unit Outcome),
      runAlone b none (resolve [] c.mode) { state := () } = (some (.ok ((), [])), w) ∧
      (start w d).follow b (choices.map fun x => (x, resized)) = some r ∧
      (start w d').follow b (choices.map fun x => (x, id)) = some r' ∧
      r'.queue.world = r.queue.world := by
  intro b c d d' start choices resized
  obtain ⟨w, r, hresolve, hr⟩ : ∃ (w : World Unit) (r : Running Unit Outcome),
      runAlone b none (resolve [] c.mode) { state := () } = (some (.ok ((), [])), w) ∧
      (start w d).follow b (choices.map fun x => (x, resized)) = some r := ⟨_, _, rfl, rfl⟩
  obtain ⟨hverdict, hworld, hall⟩ := same_for_every_display b c [] { state := () } d d'
  obtain ⟨-, hfollow⟩ := hall () [] w hresolve
  obtain ⟨r', hr', -, -, hworld'⟩ := hfollow (choices.map fun x => (x, resized))
    (choices.map fun x => (x, id)) r rfl hr
  exact ⟨hverdict, hworld, w, r, r', hresolve, hr, hr', hworld'⟩

end Dispatch

end Muster
