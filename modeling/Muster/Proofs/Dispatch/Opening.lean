import Muster.Proofs.Dispatch.Calls

/-! What a command does before its tasks. Main statement: it is called off if there are no arguments to look
up, and then it does nothing at all, or if its one call failed; and not otherwise. -/

namespace Muster

variable {σ : Type}

namespace Mode

/-- The call that comes before all tasks. -/
def opening : Mode → Call
  | .none => .account
  | .only k => k.listing
  | .all k => k.listing

/-- A command makes that call unless it has no arguments to look up. -/
def Opens (m : Mode) (raw : List String) : Prop := m.kind? = Option.none ∨ raw ≠ []

theorem not_opens {m : Mode} {raw : List String} (h : ¬ m.Opens raw) :
    ∃ k, m.kind? = some k ∧ raw = [] := by
  obtain ⟨hkind, hraw⟩ := not_or.mp h
  obtain ⟨k, hk⟩ := Option.ne_none_iff_exists'.mp hkind
  exact ⟨k, hk, not_not.mp hraw⟩

/-- What a command fails with when that call does. Refused credentials are told apart by their status. -/
def failure (m : Mode) (cause : ApiError) : CommandError :=
  if cause.statusCode? = some 401 then .invalidCredentials
  else match m with
    | .none => .api cause
    | .only _ => .resolverUnavailable cause
    | .all _ => .resolverUnavailable cause

end Mode

namespace Dispatch

theorem refuse_eq (otherwise : ApiError → CommandError) (cause : ApiError) :
    refuse otherwise cause =
      if cause.statusCode? = some 401 then .invalidCredentials else otherwise cause := by
  simp only [refuse, ApiError.isUnauthorized, beq_iff_eq]

/-- How a command is called off, with what it fails with and the world that it leaves: there are no
arguments to look up, or the call that comes first failed. -/
inductive CalledOff (b : Backend σ) (raw : List String) (world : World σ) (m : Mode) :
    CommandError → World σ → Prop where
  | idle {k : Kind} : m.kind? = some k → raw = [] →
    CalledOff b raw world m (.action ("at least one argument is required: " ++ k.help)) world
  | refused {cause : ApiError} {w : World σ} : m.Opens raw →
    runAlone b none (Program.call m.opening) world = (some (.error cause), w) →
    CalledOff b raw world m (m.failure cause) w

variable {b : Backend σ} {raw : List String} {world w : World σ} {m : Mode}

theorem search_eq {k : Kind} (hraw : raw ≠ []) (find : List k.Resource → List Resolved) :
    ∃ next : Except ApiError k.listing.Answer → Program _,
      search k raw find = (Program.call k.listing).bind next ∧
      (∀ cause, next (.error cause) = .done (.error (refuse .resolverUnavailable cause))) ∧
      ∀ answer, ∃ found, next (.ok answer) = .done (.ok found) := by
  let found (answer : k.listing.Answer) : Snapshot k × List Resolved :=
    (⟨some (k.ofListing answer)⟩, find (k.ofListing answer))
  refine ⟨fun reply => .done ((reply.map found).mapError (refuse .resolverUnavailable)), ?_,
    fun _ => rfl, fun _ => ⟨_, rfl⟩⟩
  change (survey k raw).bind _ = _
  simp only [survey, List.isEmpty_iff, hraw, if_false]
  refine congrArg (Program.act (.call k.listing)) (funext fun reply => ?_)
  cases reply <;> rfl

/-- The first call decides what comes of the arguments, if it is made. -/
theorem resolve_eq (hopens : m.Opens raw) :
    ∃ next : Except ApiError m.opening.Answer → Program _,
      resolve raw m = (Program.call m.opening).bind next ∧
      (∀ cause, next (.error cause) = .done (.error (m.failure cause))) ∧
      ∀ answer, ∃ found, next (.ok answer) = .done (.ok found) := by
  cases m with
  | none =>
    refine ⟨fun reply => .done _, rfl, fun cause => ?_, fun answer => ⟨_, rfl⟩⟩
    simp only [refuse_eq]
    rfl
  | only k =>
    have hraw : raw ≠ [] := by simpa [Mode.Opens, Mode.kind?] using hopens
    obtain ⟨next, hsearch, hfailed, hfound⟩ := search_eq hraw fun items =>
      raw.map (resolveOnly k items)
    exact ⟨next, hsearch, fun cause => (hfailed cause).trans (by rw [refuse_eq]; rfl), hfound⟩
  | all k =>
    have hraw : raw ≠ [] := by simpa [Mode.Opens, Mode.kind?] using hopens
    obtain ⟨next, hsearch, hfailed, hfound⟩ := search_eq hraw fun items =>
      raw.flatMap (resolveAll k items)
    exact ⟨next, hsearch, fun cause => (hfailed cause).trans (by rw [refuse_eq]; rfl), hfound⟩

theorem resolve_nil {k : Kind} (hkind : m.kind? = some k) :
    resolve [] m = .done (.error (.action ("at least one argument is required: " ++ k.help))) := by
  cases m with
  | none => exact nomatch hkind
  | only k' =>
    obtain rfl := Option.some.inj hkind
    rfl
  | all k' =>
    obtain rfl := Option.some.inj hkind
    rfl

section Opened

variable {cause : ApiError} (hopens : m.Opens raw)

include hopens

theorem resolve_of_crashed
    (hcall : runAlone b none (Program.call m.opening) world = (none, w)) :
    runAlone b none (resolve raw m) world = (none, w) := by
  obtain ⟨next, hresolve, -⟩ := resolve_eq hopens
  rw [hresolve, runAlone_bind, hcall]

theorem resolve_of_refused
    (hcall : runAlone b none (Program.call m.opening) world = (some (.error cause), w)) :
    runAlone b none (resolve raw m) world = (some (.error (m.failure cause)), w) := by
  obtain ⟨next, hresolve, hfailed, -⟩ := resolve_eq hopens
  rw [hresolve, runAlone_bind, hcall]
  simp only [hfailed]
  rfl

theorem resolve_of_answered {answer : m.opening.Answer}
    (hcall : runAlone b none (Program.call m.opening) world = (some (.ok answer), w)) :
    ∃ known found, runAlone b none (resolve raw m) world = (some (.ok (known, found)), w) := by
  obtain ⟨next, hresolve, -, hfound⟩ := resolve_eq hopens
  obtain ⟨found, hdone⟩ := hfound answer
  refine ⟨found.1, found.2, ?_⟩
  rw [hresolve, runAlone_bind, hcall]
  simp only [hdone]
  rfl

end Opened

theorem opening_cases (b : Backend σ) (raw : List String) (world : World σ) (m : Mode) :
    (∃ k, m.kind? = some k ∧ raw = [] ∧ runAlone b none (resolve raw m) world =
      (some (.error (.action ("at least one argument is required: " ++ k.help))), world)) ∨
    m.Opens raw ∧
      ((∃ w, runAlone b none (Program.call m.opening) world = (none, w) ∧
        runAlone b none (resolve raw m) world = (none, w)) ∨
      (∃ cause w, runAlone b none (Program.call m.opening) world = (some (.error cause), w) ∧
        runAlone b none (resolve raw m) world = (some (.error (m.failure cause)), w)) ∨
      ∃ answer w known found,
        runAlone b none (Program.call m.opening) world = (some (.ok answer), w) ∧
        runAlone b none (resolve raw m) world = (some (.ok (known, found)), w)) := by
  by_cases hopens : m.Opens raw
  · refine .inr ⟨hopens, ?_⟩
    rcases hcall : runAlone b none (Program.call m.opening) world with ⟨_ | cause | answer, w⟩
    · exact .inl ⟨w, rfl, resolve_of_crashed hopens hcall⟩
    · exact .inr (.inl ⟨cause, w, rfl, resolve_of_refused hopens hcall⟩)
    · obtain ⟨known, found, hfound⟩ := resolve_of_answered hopens hcall
      exact .inr (.inr ⟨answer, w, known, found, rfl, hfound⟩)
  · obtain ⟨k, hk, rfl⟩ := Mode.not_opens hopens
    refine .inl ⟨k, hk, rfl, ?_⟩
    rw [resolve_nil hk]
    rfl

theorem calledOff_iff {e : CommandError} : CalledOff b raw world m e w ↔
    runAlone b none (resolve raw m) world = (some (.error e), w) := by
  constructor
  · rintro (⟨hkind, rfl⟩ | ⟨hopens, hcall⟩)
    · rw [resolve_nil hkind]
      rfl
    · exact resolve_of_refused hopens hcall
  · intro hresolve
    rcases opening_cases b raw world m with ⟨k, hkind, rfl, h⟩ |
      ⟨hopens, ⟨_, -, h⟩ | ⟨cause, _, hcall, h⟩ | ⟨_, _, _, _, -, h⟩⟩
    · cases h.symm.trans hresolve
      exact .idle hkind rfl
    · exact nomatch h.symm.trans hresolve
    · cases h.symm.trans hresolve
      exact .refused hopens hcall
    · exact nomatch h.symm.trans hresolve

theorem crashed_iff : runAlone b none (resolve raw m) world = (none, w) ↔
    m.Opens raw ∧ runAlone b none (Program.call m.opening) world = (none, w) := by
  refine ⟨fun hresolve => ?_, fun h => resolve_of_crashed h.1 h.2⟩
  rcases opening_cases b raw world m with ⟨_, -, rfl, h⟩ |
    ⟨hopens, ⟨_, hcall, h⟩ | ⟨_, _, -, h⟩ | ⟨_, _, _, _, -, h⟩⟩
  · exact nomatch h.symm.trans hresolve
  · cases h.symm.trans hresolve
    exact ⟨hopens, hcall⟩
  · exact nomatch h.symm.trans hresolve
  · exact nomatch h.symm.trans hresolve

theorem CalledOff.recorded {e : CommandError} (h : CalledOff b raw world m e w) :
    (¬ m.Opens raw → w = world) ∧
      (m.Opens raw → w.events = world.events ++ [(world.now, .called m.opening)]) ∧
      w.entries = world.entries := by
  cases h with
  | idle hkind hraw =>
    have hidle : ¬ m.Opens raw := by simp [Mode.Opens, hkind, hraw]
    exact ⟨fun _ => rfl, fun hopens => absurd hopens hidle, rfl⟩
  | refused hopens hcall =>
    have hentries := entries_runAlone_call b none m.opening world
    rw [hcall] at hentries
    exact ⟨absurd hopens, fun _ => (World.recorded_of_call hcall).1, hentries⟩

variable {c : Command} {display : Display}

theorem run_eq_aborted_iff {e : CommandError} :
    run b c raw world display = .aborted e w ↔ CalledOff b raw world c.mode e w := by
  rw [calledOff_iff]
  rcases hresolve : runAlone b none (resolve raw c.mode) world with ⟨_ | e' | ⟨known, found⟩, w'⟩
  · simp [run, hresolve]
  · simp [run, hresolve]
  · simp [run, hresolve]

theorem run_eq_crashed_iff : run b c raw world display = .crashed w ↔
    c.mode.Opens raw ∧ runAlone b none (Program.call c.mode.opening) world = (none, w) := by
  rw [← crashed_iff]
  rcases hresolve : runAlone b none (resolve raw c.mode) world with ⟨_ | e' | ⟨known, found⟩, w'⟩
  · simp [run, hresolve]
  · simp [run, hresolve]
  · simp [run, hresolve]

end Dispatch

end Muster
