import Muster.Proofs.Dispatch.Opening
import Muster.Proofs.Dispatch.Transitions
import Muster.Proofs.Program.Course

/-! Failures of the service, before and after a command has come to its tasks. Main statement: a failure of
the first call calls the command off, and nothing else does; each later failure ends the task that it was
answered to, as its result, and makes no difference to any other. -/

namespace Muster

variable {σ : Type}

/-- No call was answered with a failure. -/
def Unfailed (made : List Exchange) : Prop := ∀ x ∈ made, ∀ e, x.reply? ≠ some (.error e)

/-- The last call was answered with this failure, and none before it with any. -/
def StoppedBy (e : ApiError) (made : List Exchange) : Prop :=
  ∃ before x, made = before ++ [x] ∧ Unfailed before ∧ x.reply? = some (.error e)

/-- A failure that a call was answered with is what the task comes to, and there are no calls after it. -/
def PassedOn (outcome : Outcome) (made : List Exchange) : Prop :=
  Unfailed made ∨ ∃ e, StoppedBy e made ∧ outcome = .error (.handled (.api e))

/-- What is so of the calls up to one with the given answer. -/
def Told {α : Type} (made : List Exchange) : Except ApiError α → Prop
  | .ok _ => Unfailed made
  | .error e => StoppedBy e made

/-- A failure that a call was answered with is what a part of a task comes to. -/
def Heard (made : List Exchange) (result : Except CommandError Unit) : Prop :=
  Unfailed made ∨ ∃ e, StoppedBy e made ∧ result = .error (.api e)

theorem Unfailed.nil : Unfailed [] := fun _ hx => absurd hx List.not_mem_nil

theorem Unfailed.concat {made : List Exchange} {x : Exchange} (h : Unfailed made)
    (hx : ∀ e, x.reply? ≠ some (.error e)) : Unfailed (made ++ [x]) := by
  intro y hy
  rcases List.mem_append.mp hy with hy | hy
  · exact h y hy
  · rw [List.mem_singleton.mp hy]
    exact hx

section Parts

variable {crashes : List Exchange → Prop} {made : List Exchange}

theorem Program.makes_told (hcrash : ∀ m, Unfailed m → crashes m) (h : Unfailed made) (c : Call) :
    (call c).Makes crashes (fun reply m => Told m reply) made := by
  refine makes_call c (hcrash _ (h.concat (by simp))) fun reply => ?_
  cases reply with
  | ok a => exact h.concat (by simp)
  | error e => exact ⟨made, _, rfl, h, rfl⟩

namespace Action

theorem makes_passedOn_look (hcrash : ∀ m, Unfailed m → crashes m) (h : Unfailed made) (c : Call)
    (view : c.Answer → Output) :
    (look c view).Makes crashes (fun o m => PassedOn (o.mapError CommandError.markHandled) m) made := by
  refine (Program.makes_told hcrash h c).bind fun reply m hm => ?_
  cases reply with
  | ok a => exact .inl hm
  | error e => exact .inr ⟨e, hm, rfl⟩

theorem makes_passedOn_giveUp (message : String) {e : CommandError} (h : Heard made (.error e)) :
    (giveUp message e).Makes crashes
      (fun o m => PassedOn (o.mapError CommandError.markHandled) m) made := by
  refine (makes_giveUp message e).imp fun o m ho => ?_
  obtain ⟨rfl, rfl⟩ := ho
  rcases h with hunfailed | ⟨cause, hstopped, hcause⟩
  · exact .inl hunfailed
  · cases hcause
    exact .inr ⟨cause, hstopped, rfl⟩

theorem makes_passedOn_succeed (message : String) (server : Server) (h : Unfailed made) :
    (succeed message server).Makes crashes
      (fun o m => PassedOn (o.mapError CommandError.markHandled) m) made := by
  refine (makes_succeed message server).imp fun o m ho => ?_
  obtain ⟨-, rfl⟩ := ho
  exact .inl h

theorem makes_passedOn_delete (message : String) {request : Program (Except ApiError Unit)}
    (hrequest : request.Makes crashes (fun reply m => Told m reply) made) :
    (delete message request).Makes crashes
      (fun o m => PassedOn (o.mapError CommandError.markHandled) m) made := by
  refine (Task.makes_started message).bind fun _ m hm => ?_
  obtain rfl := hm
  refine hrequest.bind fun reply m hm => ?_
  cases reply with
  | error e => exact makes_passedOn_giveUp message (.inr ⟨e, hm, rfl⟩)
  | ok _ =>
    refine (Task.makes_success _).bind fun _ m' hm' => ?_
    obtain rfl := hm'
    exact .inl hm

theorem makes_heard_awaitState (hcrash : ∀ m, Unfailed m → crashes m) (h : Unfailed made)
    (p : WaitPolicy) (uuid state : String) :
    (awaitState p uuid state).Makes crashes (fun result m => Heard m result) made := by
  -- time that runs out and an interrupt end the wait, but are no failures of the service
  have hrule : WaitRule crashes Unfailed (fun ready m => Told m ready)
      (fun result m => Heard m result) :=
    { crashed := hcrash
      again := fun _ hm => hm
      met := fun _ hm => .inl hm
      failed := fun e _ hm => .inr ⟨e, hm, rfl⟩
      late := fun _ _ hm => .inl hm }
  refine makes_awaitState p hrule (fun m hm => ?_) h
  refine (Program.makes_told hcrash hm (.serverDetails uuid)).bind fun reply m' hm' => ?_
  cases reply with
  | error e => exact hm'
  | ok s => exact hm'

theorem makes_passedOn_transition (hcrash : ∀ m, Unfailed m → crashes m) (h : Unfailed made)
    (t : Transition) (p : WaitPolicy) (waits : Bool) {request : Program (Except ApiError Server)}
    (hrequest : request.Makes crashes (fun reply m => Told m reply) made)
    (known : Snapshot .server) (uuid : String) :
    (t.run p waits request known uuid).Makes crashes
      (fun o m => PassedOn (o.mapError CommandError.markHandled) m) made := by
  rw [t.run_eq]
  refine (Task.makes_started _).bind fun _ m hm => ?_
  obtain rfl := hm
  split
  · refine (Task.makes_warning _ _).bind fun _ m' hm' => ?_
    obtain rfl := hm'
    exact .inl h
  · refine hrequest.bind fun reply m hm => ?_
    cases reply with
    | error e => exact makes_passedOn_giveUp _ (.inr ⟨e, hm, rfl⟩)
    | ok s =>
      cases waits with
      | false => exact makes_passedOn_succeed _ s hm
      | true =>
        refine (Task.makes_update _).bind fun _ m' hm' => ?_
        obtain rfl := hm'
        refine (makes_heard_awaitState hcrash hm p uuid t.target).bind fun result m hm => ?_
        cases result with
        | error e => exact makes_passedOn_giveUp _ hm
        | ok _ =>
          refine makes_passedOn_succeed _ s (hm.resolve_right ?_)
          rintro ⟨_, -, hresult⟩
          exact nomatch hresult

/-- No built-in action makes up for a failure of the service. -/
theorem makes_passedOn_run (hcrash : ∀ m, Unfailed m → crashes m) (p : WaitPolicy) (a : Action)
    (known : a.mode.Known) (uuid : String) :
    (a.run p known uuid).Makes crashes
      (fun o m => PassedOn (o.mapError CommandError.markHandled) m) [] := by
  have hcall (c : Call) := Program.makes_told hcrash .nil c
  cases a with
  | accountShow => exact makes_passedOn_look hcrash .nil _ _
  | serverList => exact makes_passedOn_look hcrash .nil _ _
  | serverShow => exact makes_passedOn_look hcrash .nil _ _
  | serverStart waits =>
    exact makes_passedOn_transition hcrash .nil starting p waits (hcall (.startServer uuid)) known
      uuid
  | serverStop how waits =>
    exact makes_passedOn_transition hcrash .nil stopping p waits
      (hcall (.stopServer uuid how p.timeout)) known uuid
  | serverDelete withStorages =>
    exact makes_passedOn_delete _ (hcall (.deleteServer uuid withStorages))
  | networkList => exact makes_passedOn_look hcrash .nil _ _
  | networkShow => exact .inl .nil
  | storageList => exact makes_passedOn_look hcrash .nil _ _
  | storageShow => exact .inl .nil
  | storageDelete => exact makes_passedOn_delete _ (hcall (.deleteStorage uuid))

end Action

theorem Dispatch.makes_passedOn_task {c : Command} {known : c.mode.Known} {arg : Resolved}
    (haction : (c.action known arg.value).Makes crashes
      (fun o m => PassedOn (o.mapError CommandError.markHandled) m) []) :
    (task c known arg).Makes crashes PassedOn [] := by
  cases herror : arg.error? with
  | none => exact makes_task herror haction
  | some e =>
    rw [task_of_error herror]
    refine (Task.makes_update _).bind fun _ m hm => (Task.makes_fail _ _).bind fun _ m' hm' => ?_
    obtain ⟨-, rfl⟩ := hm'
    exact .inl (hm ▸ .nil)

end Parts

namespace Dispatch

section Gathered

variable {b : Backend σ} {c : Command} {known : c.mode.Known} {args : List Resolved} {w : World σ}
  {display : Display} {notes : List (Nat × Note)} {q : Queue σ Outcome} {r : TaskResult}

/-- Wherever a task for the same argument does and is answered the same, whatever happens beside it, its
result is the same. -/
def Settled (c : Command) (known : c.mode.Known) (r : TaskResult) (made : List Note) : Prop :=
  ∀ (τ : Type) (b : Backend τ) (args : List Resolved) (w : World τ) (display : Display)
    (notes : List (Nat × Note)) (q : Queue τ Outcome),
    Running.Runs b (.start c.limit (args.map (task c known)) w display) notes ⟨.returned, q⟩ →
    ∀ r' ∈ gather args q.results, r'.argument = r.argument →
      (own r'.job notes).map Note.untimed = made.map Note.untimed → r'.outcome = r.outcome

theorem settled_of_gathered
    (hruns : Running.Runs b (.start c.limit (args.map (task c known)) w display) notes
      ⟨.returned, q⟩)
    (hr : r ∈ gather args q.results) : Settled c known r (own r.job notes) := by
  intro τ b' args' w' display' notes' q' hruns' r' hr' hargument hsame
  obtain ⟨outcome?, -, hfollows, houtcome⟩ := came_of_gathered hruns hr
  obtain ⟨outcome'?, -, hfollows', houtcome'⟩ := came_of_gathered hruns' hr'
  rw [hargument] at hfollows'
  rw [houtcome, houtcome', hfollows'.determined hfollows hsame]

theorem passedOn_of_gathered {a : Action} {p : WaitPolicy} (hc : c = a.command p)
    (hruns : Running.Runs b (.start c.limit (args.map (task c known)) w display) notes
      ⟨.returned, q⟩)
    (hr : r ∈ gather args q.results) : PassedOn r.outcome (exchanges (own r.job notes)) := by
  subst hc
  have htask : (task (a.command p) known r.argument).Makes (PassedOn (.error lost)) PassedOn [] :=
    makes_passedOn_task (Action.makes_passedOn_run (fun _ => .inl) p a known r.argument.value)
  exact (exchanges_of_gathered hruns hr htask).1

end Gathered

/-- A command is called off if and only if it has no arguments to look up, or its first call failed. It
fails by the cause, and then it has done nothing, or nothing but that call, and shows nothing. If the call is
answered the command comes to an end with its tasks, in whichever order they run. There is one result for
each, from a task that kept to its program to the end or crashed on the way; it is decided by what this
task did and was answered, and by nothing that happened to another. And where a built-in action is answered
with a failure, this ends its task and is the result. -/
theorem called_off_before_tasks_only (b : Backend σ) (c : Command) (raw : List String)
    (world : World σ) (display : Display) :
    (∀ e w, run b c raw world display = .aborted e w ↔ CalledOff b raw world c.mode e w) ∧
    (∀ e w, run b c raw world display = .aborted e w →
      (¬ c.mode.Opens raw → w = world) ∧
      (c.mode.Opens raw → w.events = world.events ++ [(world.now, .called c.mode.opening)]) ∧
      w.entries = world.entries ∧ ∀ display', run b c raw world display' = .aborted e w) ∧
    (∀ w, run b c raw world display = .crashed w ↔
      c.mode.Opens raw ∧ runAlone b none (Program.call c.mode.opening) world = (none, w)) ∧
    ∀ answer w, c.mode.Opens raw →
      runAlone b none (Program.call c.mode.opening) world = (some (.ok answer), w) →
      ∃ (known : c.mode.Known) (found : List Resolved),
        runAlone b none (resolve raw c.mode) world = (some (.ok (known, found)), w) ∧
        let args := orEmpty found
        let start := Running.start c.limit (args.map (task c known)) w display
        (∃ notes q, Running.Runs b start notes ⟨.returned, q⟩ ∧
          run b c raw world display = .finished (gather args q.results) q) ∧
        ∀ (notes : List (Nat × Note)) (q : Queue σ Outcome),
          Running.Runs b start notes ⟨.returned, q⟩ →
          let results := gather args q.results
          (results.map (·.job)).Perm (List.range args.length) ∧
          ∀ r ∈ results, args[r.job]? = some r.argument ∧
            (∃ outcome? : Option Outcome, q.slots[r.job]? = some (.ended outcome?) ∧
              (Slot.ended outcome? : Slot σ Outcome).Follows (task c known r.argument)
                (own r.job notes) ∧
              r.outcome = outcome?.getD (.error lost)) ∧
            Settled c known r (own r.job notes) ∧
            ∀ (a : Action) (p : WaitPolicy), c = a.command p →
              PassedOn r.outcome (exchanges (own r.job notes)) := by
  refine ⟨fun e w => run_eq_aborted_iff, fun e w haborted => ?_, fun w => run_eq_crashed_iff,
    fun answer w hopens hcall => ?_⟩
  · have hoff := run_eq_aborted_iff.mp haborted
    obtain ⟨hidle, hevents, hentries⟩ := hoff.recorded
    exact ⟨hidle, hevents, hentries, fun display' => run_eq_aborted_iff.mpr hoff⟩
  · obtain ⟨known, found, hresolve⟩ := resolve_of_answered hopens hcall
    refine ⟨known, found, hresolve, ?_, fun notes q hruns => ?_⟩
    · obtain ⟨q, hreach, hrun⟩ : ∃ q, Running.Reachable b
            (.start c.limit ((orEmpty found).map (task c known)) w display) ⟨.returned, q⟩ ∧
          run b c raw world display = .finished (gather (orEmpty found) q.results) q :=
        run_of_resolved hresolve
      obtain ⟨notes, hruns⟩ := Running.Runs.of_reachable hreach
      exact ⟨notes, q, hruns, hrun⟩
    · refine ⟨perm_of_returned hruns.reachable, fun r hr =>
        ⟨argument_of_gathered hruns.reachable hr, came_of_gathered hruns hr,
          settled_of_gathered hruns hr, fun a p hc => passedOn_of_gathered hc hruns hr⟩⟩

section Shared

/-- The credentials are refused. -/
def refusing : Backend Unit := ⟨fun _ _ s => ⟨0, s, fun _ s => (.failure (.status 401 ""), s)⟩⟩

def twoServers : List Server := [⟨"u", "", "", "", "", ""⟩, ⟨"v", "", "", "", "", ""⟩]

/-- The credentials are refused for all but a listing and the deletion of one of two servers. -/
def guarded : Backend Unit :=
  ⟨fun c _ s => ⟨0, s, fun _ s =>
    (match c with
      | .servers => .answer twoServers
      | .deleteServer "v" _ => .answer ()
      | _ => .failure (.status 401 ""), s)⟩⟩

def listed : World Unit := { state := (), journal := [(0, .called .servers)] }

def deleting : Command := (Action.serverDelete false).command (.ofConfig 1 1 {})

def bothServers : List Resolved := [⟨"u", "u", none⟩, ⟨"v", "v", none⟩]

theorem reachable_of_choices {α : Type} {b : Backend σ} {choices : List Choice} {r r' : Running σ α}
    (h : choices.foldlM (fun r c => r.choose b c) r = some r') : Running.Reachable b r r' := by
  induction choices generalizing r with
  | nil =>
    obtain rfl := Option.some.inj h
    exact .refl
  | cons c choices ih =>
    obtain ⟨next, hc, hrest⟩ := Option.bind_eq_some_iff.mp h
    exact .head ⟨c, hc⟩ (ih hrest)

theorem results_guarded : ∃ q,
    Running.Reachable guarded
      (.start deleting.limit (bothServers.map (task deleting ⟨some twoServers⟩)) listed {})
      ⟨.returned, q⟩ ∧
    gather bothServers q.results =
      [⟨0, ⟨"u", "u", none⟩, .error (.handled (.api (.status 401 "")))⟩,
        ⟨1, ⟨"v", "v", none⟩, .ok .none⟩] := by
  let choices : List Choice := List.replicate 3 .proceed ++
    .enter 0 :: List.replicate 9 (.act 0) ++ .enter 1 :: List.replicate 9 (.act 1) ++
    [.join 0, .proceed, .join 0, .proceed]
  obtain ⟨⟨position, q⟩, hchoices, hposition, hresults⟩ : ∃ r : Running Unit Outcome,
      choices.foldlM (fun r c => r.choose guarded c) (.start deleting.limit
        (bothServers.map (task deleting ⟨some twoServers⟩)) listed {}) = some r ∧
      r.position = .closing ∧
      gather bothServers r.queue.results =
        [⟨0, ⟨"u", "u", none⟩, .error (.handled (.api (.status 401 "")))⟩,
          ⟨1, ⟨"v", "v", none⟩, .ok .none⟩] := ⟨_, rfl, rfl, rfl⟩
  obtain rfl : position = .closing := hposition
  have hreach := reachable_of_choices hchoices
  refine ⟨q.render.renderOpen, (hreach.tail ⟨.proceed, rfl⟩).tail ⟨.proceed, rfl⟩, ?_⟩
  have hrendered : q.render.renderOpen.results = q.results := by
    rw [Queue.renderOpen]
    split <;> rfl
  rw [hrendered, hresults]

/-- Two servers are to be deleted. If the listing is refused nothing is; if the deletion of the first is
refused, that of the second is not touched. -/
theorem called_off_before_tasks_only_guarded :
    (∃ w, run refusing deleting ["u", "v"] { state := () } {} = .aborted .invalidCredentials w ∧
      w.events = [(0, .called .servers)]) ∧
    ∃ notes q,
      Running.Runs guarded
        (.start deleting.limit (bothServers.map (task deleting ⟨some twoServers⟩)) listed {}) notes
        ⟨.returned, q⟩ ∧
      gather bothServers q.results =
        [⟨0, ⟨"u", "u", none⟩, .error (.handled (.api (.status 401 "")))⟩,
          ⟨1, ⟨"v", "v", none⟩, .ok .none⟩] ∧
      Unfailed (exchanges (own 1 notes)) ∧
      Settled deleting ⟨some twoServers⟩ ⟨1, ⟨"v", "v", none⟩, .ok .none⟩ (own 1 notes) := by
  have hopens : deleting.mode.Opens ["u", "v"] := .inr (List.cons_ne_nil _ _)
  constructor
  · obtain ⟨haborts, hleaves, -⟩ :=
      called_off_before_tasks_only refusing deleting ["u", "v"] { state := () } {}
    obtain ⟨w, hcall⟩ : ∃ w, runAlone refusing none (Program.call deleting.mode.opening)
        { state := () } = (some (.error (.status 401 "")), w) := ⟨_, rfl⟩
    have haborted := (haborts _ w).mpr (.refused hopens hcall)
    exact ⟨w, haborted, (hleaves _ w haborted).2.1 hopens⟩
  · obtain ⟨-, -, -, hfinishes⟩ :=
      called_off_before_tasks_only guarded deleting ["u", "v"] { state := () } {}
    have hcall : runAlone guarded none (Program.call .servers) { state := () } =
        (some (.ok twoServers), listed) := rfl
    obtain ⟨known, found, hresolve, -, hall⟩ := hfinishes _ listed hopens hcall
    have hlisted : runAlone guarded none (resolve ["u", "v"] deleting.mode) { state := () } =
        (some (.ok (⟨some twoServers⟩, ["u", "v"].map (resolveOnly .server twoServers))), listed) :=
      search_of_listed (List.cons_ne_nil _ _) hcall
    have hsame := Except.ok.inj (Option.some.inj (congrArg Prod.fst (hresolve.symm.trans hlisted)))
    obtain rfl : known = ⟨some twoServers⟩ := congrArg Prod.fst hsame
    obtain rfl : found = bothServers := (congrArg Prod.snd hsame).trans (by decide +kernel)
    obtain ⟨q, hreach, hresults⟩ := results_guarded
    obtain ⟨notes, hruns⟩ := Running.Runs.of_reachable hreach
    obtain ⟨-, hresult⟩ := hall notes q hruns
    obtain ⟨-, -, hsettled, hpassed⟩ := hresult ⟨1, ⟨"v", "v", none⟩, .ok .none⟩
      (hresults ▸ List.mem_cons_of_mem _ List.mem_cons_self)
    refine ⟨notes, q, hruns, hresults, (hpassed _ _ rfl).resolve_right ?_, hsettled⟩
    rintro ⟨_, -, hfailed⟩
    exact nomatch hfailed

end Shared

end Dispatch

end Muster
