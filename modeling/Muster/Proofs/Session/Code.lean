import Muster.Proofs.Config.Precedence
import Muster.Proofs.Dispatch.Results

/-! The code that a run ends with. Main statement: it tells whether the command was carried out, whether it
was interrupted, and up to a limit how many of its tasks failed; and what is seen of it is zero only if
nothing went wrong. -/

namespace Muster

variable {σ α : Type}

/-- A wait that was cancelled, marked as handled any number of times. -/
inductive CommandError.StemsFromCancel : CommandError → Prop
  | wait (target : String) : StemsFromCancel (.timeout (.cancelled target))
  | marked {e : CommandError} : StemsFromCancel e → StemsFromCancel (.handled e)

theorem CommandError.isCancelled_iff {e : CommandError} :
    e.isCancelled = true ↔ e.StemsFromCancel := by
  constructor
  · intro h
    induction e with
    | handled e ih => exact .marked (ih h)
    | timeout e =>
      cases e with
      | cancelled target => exact .wait target
      | deadlineExceeded target after => simp [isCancelled, root] at h
    | _ => simp [isCancelled, root] at h
  · intro h
    induction h with
    | wait target => rfl
    | marked _ ih => exact ih

/-- A peer that also keeps the requests that it gets. -/
def Http.Peer.recorded (peer : Http.Peer σ) : Http.Peer (σ × List Http.Request) := fun q now s =>
  let (r, s') := peer q now s.1
  (r, s', s.2 ++ [q])

/-- A service that answers every call, if only with a failure. -/
def Backend.AlwaysAnswers (b : Backend σ) : Prop :=
  ∀ c now s later s', ((b.receive c now s).finish later s').1 ≠ .crash

theorem Client.alwaysAnswers (api : Config.Api) (peer : Http.Peer σ) :
    (Client.backend api peer).AlwaysAnswers := by
  intro c now s later s'
  simp only [backend]
  split <;> simp

theorem Reply.deliver_of_ne_crash {r : Reply α × σ} (h : r.1 ≠ .crash) :
    ∃ answer, Reply.deliver r = (some answer, r.2) := by
  obtain ⟨reply, s⟩ := r
  cases reply with
  | answer a => exact ⟨.ok a, rfl⟩
  | failure e => exact ⟨.error e, rfl⟩
  | crash => exact absurd rfl h

namespace Dispatch

variable {b : Backend σ}

theorem call_isSome (h : b.AlwaysAnswers) (c : Call) (w : World σ) :
    (runAlone b none (Program.call c) w).1.isSome := by
  change (runAlone b none (.act (.call c) .done) w).1.isSome
  let arrived := w.record (.called c)
  let t := b.receive c arrived.now arrived.state
  have hdeliver (later : Nat) : ∃ answer, Reply.deliver (t.finish later t.state) =
      (some answer, (t.finish later t.state).2) :=
    Reply.deliver_of_ne_crash (h c arrived.now arrived.state later t.state)
  simp only [runAlone, World.begin]
  by_cases hdelay : t.delay = 0
  · obtain ⟨answer, hanswer⟩ := hdeliver arrived.now
    rw [if_pos hdelay, hanswer]
    rfl
  · obtain ⟨answer, hanswer⟩ := hdeliver (arrived.now + t.delay)
    rw [if_neg hdelay]
    simp only [t, arrived] at hanswer
    simp only [hanswer]
    rfl

theorem bind_isSome {β : Type} {p : Program α} {f : α → β} {w : World σ}
    (h : (runAlone b none p w).1.isSome) :
    (runAlone b none (p.bind fun a => .done (f a)) w).1.isSome := by
  rw [runAlone_bind]
  rcases hp : runAlone b none p w with ⟨_ | a, w'⟩
  · rw [hp] at h
    simp at h
  · rfl

theorem survey_isSome (h : b.AlwaysAnswers) (k : Kind) (args : List String) (w : World σ) :
    (runAlone b none (survey k args) w).1.isSome := by
  unfold survey
  by_cases hargs : args.isEmpty
  · rw [if_pos hargs]
    rfl
  · rw [if_neg hargs]
    have hfetch : (runAlone b none (fetch k) w).1.isSome := bind_isSome (call_isSome h _ w)
    exact bind_isSome hfetch

theorem run_ne_crashed (h : b.AlwaysAnswers) (c : Command) (args : List String) (world w : World σ)
    (display : Display) : run b c args world display ≠ .crashed w := by
  have hsome : (runAlone b none (resolve args c.mode) world).1.isSome := by
    cases c.mode with
    | none => exact bind_isSome (call_isSome h _ world)
    | only k => exact bind_isSome (survey_isSome h k args world)
    | all k => exact bind_isSome (survey_isSome h k args world)
  unfold run
  rcases hresolve : runAlone b none (resolve args c.mode) world with ⟨_ | e | ⟨known, found⟩, w'⟩
  · rw [hresolve] at hsome
    simp at hsome
  · simp
  · simp

theorem resolve_none_of_answered {w : World σ} {a : Account} {delay : Nat} (args : List String)
    (hdelay : delay ≠ 0)
    (h : b.receive .account w.now w.state = ⟨delay, w.state, fun _ s => (.answer a, s)⟩) :
    ∃ w', runAlone b none (resolve args .none) w = (some (.ok ((), [])), w') := by
  change ∃ w', runAlone b none (.act (.call .account) _) w = _
  let arrived := w.record (.called .account)
  change b.receive .account arrived.now arrived.state = _ at h
  refine ⟨{ arrived with now := arrived.now + delay }, ?_⟩
  simp only [runAlone, World.begin, arrived] at h ⊢
  rw [h, if_neg hdelay]
  rfl

theorem wasInterrupted_iff {results : List TaskResult} : wasInterrupted results = true ↔
    ∃ r ∈ results, ∃ e, r.outcome = .error e ∧ e.StemsFromCancel := by
  unfold wasInterrupted
  rw [List.any_eq_true]
  refine exists_congr fun r => and_congr_right fun _ => ?_
  cases r.outcome with
  | ok o => simp
  | error e => simp [CommandError.isCancelled_iff]

theorem failedCount_eq_zero_iff {results : List TaskResult} :
    failedCount results = 0 ↔ ∀ r ∈ results, ∃ o, r.outcome = .ok o := by
  rw [failedCount, List.countP_eq_zero]
  refine forall_congr' fun r => imp_congr_right fun _ => ?_
  cases r.outcome with
  | ok o => simp [Outcome.isError]
  | error e => simp [Outcome.isError]

end Dispatch

namespace Session

/-- The cancellation flag is up at the end, or a task gave up as it was cancelled. -/
def Interrupted (place : Surroundings) (results : List TaskResult) (now : Nat) : Prop :=
  place.interrupts.flagAt now = true ∨
    ∃ r ∈ results, ∃ e, r.outcome = .error e ∧ e.StemsFromCancel

/-- There is room for all of the output. -/
def Written (place : Surroundings) (c : Config) (results : List TaskResult) : Prop :=
  ∀ room ∈ place.room?,
    (Output.render c.report.format (results.map TaskResult.output)).utf8ByteSize ≤ room

/-- A code tells how tasks that have these results ended. -/
structure Tells (place : Surroundings) (c : Config) (results : List TaskResult) (now code : Nat) :
    Prop where
  unwritten : ¬ Written place c results → code = 1
  interrupted : Written place c results → Interrupted place results now → code = 100
  counted : Written place c results → ¬ Interrupted place results now →
    code = min (results.countP fun r => r.outcome.isError) 99

variable {place : Surroundings} {c : Config} {results : List TaskResult} {now code : Nat}

theorem write_eq_true_iff (room? : Option Nat) (text : String) :
    (Progress.Sink.write ⟨"", room?⟩ text).2 = true ↔ ∀ room ∈ room?, text.utf8ByteSize ≤ room := by
  cases room? with
  | none => simp [Progress.Sink.write]
  | some room =>
    by_cases hroom : text.utf8ByteSize ≤ room
    · simp [Progress.Sink.write, hroom]
    · simp [Progress.Sink.write, hroom]

theorem tells_report (place : Surroundings) (c : Config) (results : List TaskResult)
    (q : Queue σ Outcome) : Tells place c results q.world.now (report place c results q).code := by
  have hwritten := write_eq_true_iff place.room?
    (Output.render c.report.format (results.map TaskResult.output))
  have hinterrupted : (place.interrupts.flagAt q.world.now || Dispatch.wasInterrupted results) =
      true ↔ Interrupted place results q.world.now := by
    rw [Bool.or_eq_true, Dispatch.wasInterrupted_iff]
    rfl
  rcases hwrite : Progress.Sink.write ⟨"", place.room?⟩
    (Output.render c.report.format (results.map TaskResult.output)) with ⟨sink, _ | _⟩
  · rw [hwrite] at hwritten
    have hno : ¬ Written place c results := fun h => Bool.false_ne_true (hwritten.mpr h)
    have hcode : (report place c results q).code = 1 := by simp only [report, hwrite]; rfl
    exact ⟨fun _ => hcode, fun h => absurd h hno, fun h => absurd h hno⟩
  · rw [hwrite] at hwritten
    have hyes : Written place c results := hwritten.mp rfl
    have hcode : (report place c results q).code =
        if place.interrupts.flagAt q.world.now || Dispatch.wasInterrupted results then 100
        else min (Dispatch.failedCount results) 99 := by
      simp only [report, hwrite]
      rfl
    refine ⟨fun h => absurd hyes h, fun _ h => ?_, fun _ h => ?_⟩
    · rw [hcode, if_pos (hinterrupted.mpr h)]
    · rw [hcode, if_neg fun h' => h (hinterrupted.mp h')]
      rfl

theorem Tells.mod_eq_zero_iff (h : Tells place c results now code) :
    code % 256 = 0 ↔ (∀ r ∈ results, ∃ o, r.outcome = .ok o) ∧
      ¬ Interrupted place results now ∧ Written place c results := by
  rw [← Dispatch.failedCount_eq_zero_iff]
  by_cases hwritten : Written place c results
  · by_cases hinterrupted : Interrupted place results now
    · have hcode := h.interrupted hwritten hinterrupted
      simp [hcode, hinterrupted]
    · have hcode : code = min (Dispatch.failedCount results) 99 := h.counted hwritten hinterrupted
      simp only [hinterrupted, hwritten, not_false_eq_true, and_true]
      omega
  · have hcode := h.unwritten hwritten
    simp [hcode, hwritten]

/-- A configuration that can be loaded, with credentials. -/
def Configured (place : Surroundings) (g : CommandLine.Given) (c : Config) : Prop :=
  ∃ loaded, Config.load (g.config?.map place.file) place.nearFile place.farFile place.env =
    .ok loaded ∧ c = loaded.prefer g ∧ c.hasCredentials = true

def dispatch (place : Surroundings) (peer : Http.Peer σ) (i : CommandLine.Invocation) (c : Config)
    (s : σ) : Dispatch.Ending σ :=
  Dispatch.run (Client.backend c.api peer) (i.action.command (c.waitPolicy place.interrupts)) i.args
    { state := s } (display place c)

section Run

variable {peer : Http.Peer σ} {words : List String} {i : CommandLine.Invocation} {s : σ}

theorem Configured.unique {g : CommandLine.Given} {c c' : Config} (h : Configured place g c)
    (h' : Configured place g c') : c = c' := by
  have hc : configure place g = .ok c := configure_eq_ok_iff.mpr h
  have hc' : configure place g = .ok c' := configure_eq_ok_iff.mpr h'
  exact Except.ok.inj (hc.symm.trans hc')

theorem run_of_configured (hparse : CommandLine.parse words = .ok i)
    (hc : Configured place i.given c) : run place peer words s = carryOut place peer c i s := by
  have hconfigure : configure place i.given = .ok c := configure_eq_ok_iff.mpr hc
  simp only [run, hparse, hconfigure]

/-- Without a configuration nothing is asked of the peer. -/
theorem run_of_not_configured (hparse : CommandLine.parse words = .ok i)
    (hc : ∀ c, ¬ Configured place i.given c) :
    (run place peer words s).1.code = 1 ∧ (run place peer words s).2 = s := by
  cases hconfigure : configure place i.given with
  | ok c => exact absurd (configure_eq_ok_iff.mp hconfigure) (hc c)
  | error e =>
    simp only [run, hparse, hconfigure]
    exact ⟨rfl, trivial⟩

theorem code_of_aborted {e : CommandError} {w : World σ}
    (h : dispatch place peer i c s = .aborted e w) : (carryOut place peer c i s).1.code = 1 := by
  unfold dispatch at h
  simp only [carryOut, h]
  rfl

theorem code_of_finished {q : Queue σ Outcome}
    (h : dispatch place peer i c s = .finished results q) :
    Tells place c results q.world.now (carryOut place peer c i s).1.code := by
  unfold dispatch at h
  simp only [carryOut, h]
  exact tells_report place c results q

theorem dispatch_ends (place : Surroundings) (peer : Http.Peer σ) (i : CommandLine.Invocation)
    (c : Config) (s : σ) :
    (∃ e w, dispatch place peer i c s = .aborted e w) ∨
      ∃ results q, dispatch place peer i c s = .finished results q := by
  have hcrash := fun w => Dispatch.run_ne_crashed (Client.alwaysAnswers c.api peer)
    (i.action.command (c.waitPolicy place.interrupts)) i.args { state := s } w (display place c)
  cases h : dispatch place peer i c s with
  | crashed w => exact absurd h (hcrash w)
  | aborted e w => exact .inl ⟨e, w, rfl⟩
  | finished results q => exact .inr ⟨results, q, rfl⟩

theorem code_mod_eq_zero_iff (hparse : CommandLine.parse words = .ok i) :
    (run place peer words s).1.code % 256 = 0 ↔
      ∃ c results q, Configured place i.given c ∧
        dispatch place peer i c s = .finished results q ∧
        (∀ r ∈ results, ∃ o, r.outcome = .ok o) ∧ ¬ Interrupted place results q.world.now ∧
        Written place c results := by
  constructor
  · intro hzero
    by_cases hany : ∃ c, Configured place i.given c
    · obtain ⟨c, hc⟩ := hany
      rw [run_of_configured hparse hc] at hzero
      rcases dispatch_ends place peer i c s with
        ⟨e, w, h⟩ | ⟨results, q, h⟩
      · rw [code_of_aborted h] at hzero
        simp at hzero
      · exact ⟨c, results, q, hc, h, (code_of_finished h).mod_eq_zero_iff.mp hzero⟩
    · rw [(run_of_not_configured hparse (not_exists.mp hany)).1] at hzero
      simp at hzero
  · rintro ⟨c, results, q, hc, h, hgood⟩
    rw [run_of_configured hparse hc]
    exact (code_of_finished h).mod_eq_zero_iff.mpr hgood

/-- The code of a run whose command line could be read, for any peer. It is 1 if there is no
configuration, and then nothing was asked of the peer, or if the command was called off, or if its output
could not be written. Otherwise it is 100 after an interrupt, and else the number of failed tasks, up to
99. So the low byte of it is zero only if nothing went wrong. -/
theorem code_of_parsed (place : Surroundings) (peer : Http.Peer σ) (s : σ)
    (hparse : CommandLine.parse words = .ok i) :
    let code := (run place peer words s).1.code
    ((∀ c, ¬ Configured place i.given c) →
      code = 1 ∧ (run place peer.recorded words (s, [])).2 = (s, [])) ∧
    (∀ c, Configured place i.given c →
      (∃ e w, dispatch place peer i c s = .aborted e w ∧ code = 1) ∨
      ∃ results q, dispatch place peer i c s = .finished results q ∧
        Tells place c results q.world.now code) ∧
    (∀ c results (q : Queue σ Outcome),
      Tells place c results q.world.now (report place c results q).code) ∧
    (code % 256 = 0 ↔ ∃ c results q, Configured place i.given c ∧
      dispatch place peer i c s = .finished results q ∧
      (∀ r ∈ results, ∃ o, r.outcome = .ok o) ∧ ¬ Interrupted place results q.world.now ∧
      Written place c results) := by
  intro code
  refine ⟨fun hc => ?_, fun c hc => ?_, tells_report place, code_mod_eq_zero_iff hparse⟩
  · exact ⟨(run_of_not_configured hparse hc).1, (run_of_not_configured hparse hc).2⟩
  · have hcode : code = (carryOut place peer c i s).1.code := by
      rw [← run_of_configured hparse hc]
    rw [hcode]
    rcases dispatch_ends place peer i c s with
      ⟨e, w, h⟩ | ⟨results, q, h⟩
    · exact .inl ⟨e, w, h, code_of_aborted h⟩
    · exact .inr ⟨results, q, h, code_of_finished h⟩

end Run

/-- The account could be shown, but by then the run was interrupted. -/
theorem code_of_parsed_interrupted :
    let place : Surroundings := {
      env := fun name => [("CLOUDCTL_USERNAME", "u"), ("CLOUDCTL_PASSWORD", "p"),
        ("CLOUDCTL_API_URL", "http://h")].lookup name
      file := fun _ => .missing
      interrupts := { values := [(0, true)] } }
    let peer : Http.Peer Unit := fun _ _ s =>
      (some { status := 200, body := "\x7b\"account\":\x7b\"username\":\"u\"\x7d\x7d" }, s)
    (run place peer ["account", "show"] ()).1.code = 100 := by
  intro place peer
  let c : Config := { api := ⟨"http://h", "u", "p", 60⟩ }
  let body : String := "\x7b\"account\":\x7b\"username\":\"u\"\x7d\x7d"
  have hparse : CommandLine.parse ["account", "show"] = .ok ⟨{}, .accountShow, []⟩ := rfl
  have hconfigured : Configured place {} c := by
    have hfields : Toml.read? "" = some [] := by cbv
    have hloaded : Config.load none .missing .missing place.env = .ok c := by
      simp only [Config.load, Config.choose, Config.File.read, bind, Except.bind, Config.ofText,
        hfields]
      rfl
    exact ⟨c, hloaded, rfl, by decide⟩
  have hresolved : ∃ w, runAlone (Client.backend c.api peer) none (Dispatch.resolve [] .none)
      { state := () } = (some (.ok ((), [])), w) := by
    have hrequested : (Client.request c.api .account).isOk = true := by decide +kernel
    have hdecoded : (Client.decode body .account).isOk = true := by decide +kernel
    rcases hrequest : Client.request c.api .account with _ | q
    · rw [hrequest] at hrequested
      simp [Except.isOk, Except.toBool] at hrequested
    rcases hdecode : Client.decode body .account with _ | a
    · rw [hdecode] at hdecoded
      simp [Except.isOk, Except.toBool] at hdecoded
    have hperform (now : Nat) : Client.perform c.api peer .account now () = ((.ok a, 1), ()) := by
      have hsend : Http.send peer q now () = ((.ok { status := 200, body }, 1), ()) := rfl
      have htext : ({ status := 200, body } : Http.Response).text = body := by decide +kernel
      simp only [Client.perform, hrequest, hsend, Client.interpret, htext, hdecode]
      rfl
    refine Dispatch.resolve_none_of_answered [] Nat.one_ne_zero (a := a) ?_
    simp only [Client.backend, hperform]
  obtain ⟨w, hresolved⟩ := hresolved
  have hfinished : ∃ results q, dispatch place peer ⟨{}, .accountShow, []⟩ c () =
      .finished results q := by
    exact Exists.elim (Dispatch.run_of_resolved
      (c := Action.accountShow.command (c.waitPolicy place.interrupts)) hresolved)
      fun q hq => ⟨_, q, hq.2⟩
  obtain ⟨-, hcode, -⟩ := code_of_parsed place peer () hparse
  rcases hcode c hconfigured with ⟨e, w, haborted, -⟩ | ⟨results, q, -, htells⟩
  · obtain ⟨results, q, hfinished⟩ := hfinished
    rw [hfinished] at haborted
    simp at haborted
  · have hwritten : Written place c results := by simp [Written, place]
    have hflag : place.interrupts.flagAt q.world.now = true := by simp [Interrupts.flagAt, place]
    exact htells.interrupted hwritten (.inl hflag)

end Session

end Muster
