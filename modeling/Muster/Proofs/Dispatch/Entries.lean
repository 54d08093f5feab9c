import Muster.Proofs.Dispatch.Actions
import Muster.Proofs.Dispatch.Results
import Muster.Proofs.Program.Postcondition

/-! What the entries of a command show when its tasks have ended. Main statement: an entry failed if the
result of its task did, and then it shows why, once; else it ended with success, or with a warning if
there was nothing to do. -/

namespace Muster

open Progress (Entry)

variable {σ : Type}

abbrev Unfinished (e : Entry) : Prop := e.isDone = false

theorem outcome_finish {e : Entry} (h : Unfinished e) (time : Nat) (o : Progress.Outcome) :
    (e.apply time (.finish o)).stage.outcome? = some o := by
  obtain ⟨message, details, lead, stage⟩ := e
  cases stage with
  | ended since first => simp [Unfinished, Entry.isDone, Progress.Stage.outcome?] at h
  | _ => rfl

theorem unfinished_start {e : Entry} (h : Unfinished e) (time : Nat) :
    Unfinished (e.apply time .start) := by
  obtain ⟨message, details, lead, stage⟩ := e
  cases stage with
  | ended since first => simp [Unfinished, Entry.isDone, Progress.Stage.outcome?] at h
  | _ => rfl

/-- A failure is marked as handled, once, and its entry shows why. -/
structure Explains (e : Entry) (err : CommandError) : Prop where
  marked : ∃ cause, err = .handled cause ∧ cause.isHandled = false
  outcome : e.stage.outcome? = some .failed
  details : e.details = err.message
  lead : e.lead = "error: "

/-- How an entry ends with the result of its task, which may have had nothing to do. -/
def Settled (idle : Prop) : Outcome → Entry → Prop
  | .ok _, e => (idle ∧ e.stage.outcome? = some .warning) ∨
      (¬ idle ∧ e.stage.outcome? = some .success)
  | .error err, e => Explains e err

/-- What an action may leave to do for the task that called it. -/
def Left (idle : Prop) : Outcome → Entry → Prop
  | .ok _, e => Unfinished e ∧ ¬ idle
  | .error err, e => Unfinished e ∧ err.isHandled = false

section Telling

variable {e : Entry}

namespace Task

theorem leaves_update (h : Unfinished e) (message : String) :
    (update message).Leaves Unfinished (fun _ e => Unfinished e) e :=
  Program.leaves_change _ fun _ => h

theorem leaves_started (h : Unfinished e) (message : String) :
    (started message).Leaves Unfinished (fun _ e => Unfinished e) e :=
  (leaves_update h message).bind fun _ _ h =>
    Program.leaves_change .start fun time => unfinished_start h time

theorem leaves_success (h : Unfinished e) (message : String) :
    (success message).Leaves Unfinished (fun _ e => e.stage.outcome? = some .success) e :=
  (leaves_update h message).bind fun _ _ h =>
    Program.leaves_change (.finish .success) fun time => outcome_finish h time .success

theorem leaves_warning (h : Unfinished e) (message details : String) :
    (warning message details).Leaves Unfinished (fun _ e => e.stage.outcome? = some .warning) e := by
  refine (leaves_update h message).bind fun _ e h => ?_
  have hdetails : (Program.change (.details details "")).Leaves Unfinished
      (fun _ e => Unfinished e) e := Program.leaves_change _ fun _ => h
  exact hdetails.bind fun _ _ h =>
    Program.leaves_change (.finish .warning) fun time => outcome_finish h time .warning

theorem leaves_fail (h : Unfinished e) (message : String) {err : CommandError}
    (herr : err.isHandled = false) :
    (fail message err).Leaves Unfinished (fun err e => Explains e err) e := by
  refine (leaves_update h message).bind fun _ e h => ?_
  have hdetails : (Program.change (.details err.message failureLead)).Leaves Unfinished
      (fun _ e => Unfinished e ∧ e.details = err.message ∧ e.lead = "error: ") e :=
    Program.leaves_change _ fun _ => ⟨h, rfl, rfl⟩
  refine hdetails.bind fun _ e he => ?_
  obtain ⟨h, hdetails, hlead⟩ := he
  have hmark := CommandError.markHandled_of_not_isHandled herr
  have hfinish : (Program.change (.finish .failed)).Leaves Unfinished
      (fun _ e => Explains e err.markHandled) e := by
    rw [hmark]
    exact Program.leaves_change _ fun time =>
      ⟨⟨err, rfl, herr⟩, outcome_finish h time .failed, hdetails, hlead⟩
  exact hfinish.bind fun _ _ he => he

end Task

end Telling

section Waiting

variable {e : Entry} {check : Nat → Program (Except ApiError Bool)}

/-- A wait does not touch the entry, and does not mark its failures. -/
theorem WaitPolicy.leaves_poll (p : WaitPolicy) (target : String) (h : Unfinished e)
    (hcheck : ∀ n, (check n).Leaves Unfinished (fun _ e' => e' = e) e)
    (deadline now seen : Nat) (past : List Check) :
    (p.poll target check deadline now seen past).Leaves Unfinished
      (fun report e' => e' = e ∧ ∀ err, report.result = .error err → err.isHandled = false) e := by
  fun_induction poll p target check deadline now seen past with
  | case1 => exact ⟨rfl, fun err herr => by cases herr; rfl⟩
  | case2 now seen past stop hflag ih =>
    refine (hcheck _).bind fun ready _ he => ⟨fun hwait => ?_, fun _ time _ => ?_⟩
    · exact absurd hwait Bool.false_ne_true
    obtain rfl := he
    cases ready with
    | error err => exact ⟨rfl, fun err herr => by cases herr; rfl⟩
    | ok holds =>
      cases holds with
      | true => exact ⟨rfl, fun err herr => by cases herr⟩
      | false =>
        change Program.Leaves _ _ (dite _ _ _) _
        split
        · exact ⟨rfl, fun err herr => by cases herr; rfl⟩
        · rename_i hdeadline
          exact ⟨fun _ => h, fun _ _ _ => ih time hdeadline⟩

theorem WaitPolicy.leaves_wait (p : WaitPolicy) (target : String) (h : Unfinished e)
    (hcheck : ∀ n, (check n).Leaves Unfinished (fun _ e' => e' = e) e) :
    (p.wait target check).Leaves Unfinished
      (fun report e' => e' = e ∧ ∀ err, report.result = .error err → err.isHandled = false) e := by
  refine ⟨fun hwait => absurd hwait Bool.false_ne_true, fun _ now _ => ?_⟩
  change Program.Leaves _ _ (ite _ _ _) _
  split
  · exact h
  · exact p.leaves_poll target h hcheck _ _ _ _

end Waiting

theorem Snapshot.find_eq_ok {k : Kind} {known : Snapshot k} {uuid : String} {r : k.Resource} :
    known.find uuid = .ok r ↔
      ∃ items, known.items = some items ∧ items.find? (fun r => k.uuid r == uuid) = some r := by
  obtain ⟨_ | items⟩ := known
  · simp [find, load, bind, Except.bind]
  · simp only [find, load, bind, Except.bind]
    cases hfound : items.find? fun r => k.uuid r == uuid with
    | none => simp [hfound]
    | some r' => simp [hfound]

/-- The first server listed with the identifier was in the given state. -/
def Snapshot.Lists (known : Snapshot .server) (uuid state : String) : Prop :=
  ∃ (servers : List Server) (s : Server), known.items = some servers ∧
    servers.find? (fun s => s.uuid == uuid) = some s ∧ s.state = state

namespace Action

theorem listedAs_iff {known : Snapshot .server} {uuid state : String} :
    listedAs known uuid state = true ↔ known.Lists uuid state := by
  constructor
  · intro h
    unfold listedAs at h
    split at h
    · rename_i s hs
      obtain ⟨servers, hitems, hfind⟩ := Snapshot.find_eq_ok.mp hs
      exact ⟨servers, s, hitems, hfind, by simpa using h⟩
    · simp at h
  · rintro ⟨servers, s, hitems, hfind, rfl⟩
    have hs : known.find uuid = .ok s := Snapshot.find_eq_ok.mpr ⟨servers, hitems, hfind⟩
    simp [listedAs, hs]

/-- The server was listed in the state that the action is to bring it into. -/
def Idle : (a : Action) → a.mode.Known → String → Prop
  | .serverStart _, known, uuid => Snapshot.Lists known uuid "started"
  | .serverStop _ _, known, uuid => Snapshot.Lists known uuid "stopped"
  | _, _, _ => False

section Leaving

variable {e : Entry} {idle : Prop}

theorem leaves_giveUp (h : Unfinished e) (message : String) {err : CommandError}
    (herr : err.isHandled = false) : (giveUp message err).Leaves Unfinished (Settled idle) e :=
  (Task.leaves_fail h message herr).bind fun _ _ he => he

theorem leaves_succeed (h : Unfinished e) (hidle : ¬ idle) (message : String) (server : Server) :
    (succeed message server).Leaves Unfinished (Settled idle) e :=
  (Task.leaves_success h _).bind fun _ _ he => .inr ⟨hidle, he⟩

theorem leaves_isIn (h : Unfinished e) (uuid state : String) :
    (isIn uuid state).Leaves Unfinished (fun _ e' => e' = e) e :=
  (Program.leaves_call (.serverDetails uuid) h).bind fun _ _ he => he

theorem leaves_awaitState (h : Unfinished e) (p : WaitPolicy) (uuid state : String) :
    (awaitState p uuid state).Leaves Unfinished
      (fun result e => Unfinished e ∧ ∀ err, result = .error err → err.isHandled = false) e := by
  refine (p.leaves_wait _ h fun _ => leaves_isIn h uuid state).bind fun report e' he => ?_
  obtain ⟨rfl, hresult⟩ := he
  exact ⟨h, hresult⟩

theorem leaves_afterwards (h : Unfinished e) (hidle : ¬ idle) (t : Transition) (p : WaitPolicy)
    (waits : Bool) (message uuid : String) (reply : Except ApiError Server) :
    (t.afterwards p waits message uuid reply).Leaves Unfinished (Settled idle) e := by
  cases reply with
  | error err => exact leaves_giveUp h message rfl
  | ok server =>
    cases waits with
    | false => exact leaves_succeed h hidle message server
    | true =>
      refine (Task.leaves_update h _).bind fun _ e h => ?_
      refine (leaves_awaitState h p uuid t.target).bind fun result e he => ?_
      cases result with
      | error err => exact leaves_giveUp he.1 message (he.2 err rfl)
      | ok _ => exact leaves_succeed he.1 hidle message server

theorem leaves_transition (h : Unfinished e) (t : Transition) (p : WaitPolicy) (waits : Bool)
    (known : Snapshot .server) (uuid : String) {request : Program (Except ApiError Server)}
    (hrequest : ∀ e, Unfinished e → request.Leaves Unfinished (fun _ e' => e' = e) e) :
    (t.run p waits request known uuid).Leaves Unfinished
      (Settled (known.Lists uuid t.target)) e := by
  rw [t.run_eq]
  refine (Task.leaves_started h _).bind fun _ e h => ?_
  split
  · rename_i hlisted
    exact (Task.leaves_warning h _ _).bind fun _ _ he => .inl ⟨listedAs_iff.mp hlisted, he⟩
  · rename_i hlisted
    have hidle : ¬ known.Lists uuid t.target := fun hlists => hlisted (listedAs_iff.mpr hlists)
    refine (hrequest e h).bind fun reply _ he => ?_
    obtain rfl := he
    exact leaves_afterwards h hidle t p waits _ uuid reply

theorem leaves_delete (h : Unfinished e) (hidle : ¬ idle) (message : String)
    {request : Program (Except ApiError Unit)}
    (hrequest : ∀ e, Unfinished e → request.Leaves Unfinished (fun _ e' => e' = e) e) :
    (delete message request).Leaves Unfinished (Settled idle) e := by
  refine (Task.leaves_started h message).bind fun _ e h => (hrequest e h).bind fun reply _ he => ?_
  obtain rfl := he
  cases reply with
  | error err => exact leaves_giveUp h message rfl
  | ok _ => exact (Task.leaves_success h _).bind fun _ _ he => .inr ⟨hidle, he⟩

theorem leaves_look (h : Unfinished e) (hidle : ¬ idle) (c : Call) (view : c.Answer → Output) :
    (look c view).Leaves Unfinished (Left idle) e := by
  refine (Program.leaves_call c h).bind fun reply _ he => ?_
  obtain rfl := he
  cases reply with
  | error err => exact ⟨h, rfl⟩
  | ok _ => exact ⟨h, hidle⟩

theorem leaves_lookUp (h : Unfinished e) (hidle : ¬ idle) {k : Kind} (known : Snapshot k)
    (uuid : String) (view : k.Resource → Details) :
    (lookUp known uuid view).Leaves Unfinished (Left idle) e := by
  unfold lookUp
  cases known.find uuid with
  | error err => exact ⟨h, rfl⟩
  | ok _ => exact ⟨h, hidle⟩

/-- An action ends the entry of its task itself, or leaves all that to the task. -/
theorem leaves_run (h : Unfinished e) (p : WaitPolicy) (a : Action) (known : a.mode.Known)
    (uuid : String) :
    (a.run p known uuid).Leaves Unfinished
      (fun outcome e => Settled (a.Idle known uuid) outcome e ∨ Left (a.Idle known uuid) outcome e)
      e := by
  have hrequest (c : Call) (e : Entry) (h : Unfinished e) :
      (Program.call c).Leaves Unfinished (fun _ e' => e' = e) e := Program.leaves_call c h
  cases a with
  | accountShow => exact (leaves_look h not_false _ _).mono fun _ _ => .inr
  | serverList => exact (leaves_look h not_false _ _).mono fun _ _ => .inr
  | serverShow => exact (leaves_look h not_false _ _).mono fun _ _ => .inr
  | serverStart waits =>
    exact (leaves_transition h starting p waits known uuid
      (hrequest (.startServer uuid))).mono fun _ _ => .inl
  | serverStop how waits =>
    exact (leaves_transition h stopping p waits known uuid
      (hrequest (.stopServer uuid how p.timeout))).mono fun _ _ => .inl
  | serverDelete withStorages =>
    exact (leaves_delete h not_false _
      (hrequest (.deleteServer uuid withStorages))).mono fun _ _ => .inl
  | networkList => exact (leaves_look h not_false _ _).mono fun _ _ => .inr
  | networkShow => exact (leaves_lookUp h not_false _ _ _).mono fun _ _ => .inr
  | storageList => exact (leaves_look h not_false _ _).mono fun _ _ => .inr
  | storageShow => exact (leaves_lookUp h not_false _ _ _).mono fun _ _ => .inr
  | storageDelete =>
    exact (leaves_delete h not_false _ (hrequest (.deleteStorage uuid))).mono fun _ _ => .inl

end Leaving

end Action

theorem countP_range_getElem? {β : Type} (xs : List β) (counts : β → Bool) :
    (List.range xs.length).countP (fun i => (xs[i]?).any counts) = xs.countP counts := by
  have hget : (List.range xs.length).map (fun i => xs[i]?) = xs.map some := by
    refine List.ext_getElem (by simp) fun i hi hi' => ?_
    simp at hi ⊢
  calc (List.range xs.length).countP (fun i => (xs[i]?).any counts)
      = ((List.range xs.length).map fun i => xs[i]?).countP (·.any counts) := by
        rw [List.countP_map]
        rfl
    _ = xs.countP counts := by
        rw [hget, List.countP_map]
        rfl

namespace Dispatch

section Leaving

variable {e : Entry} {idle : Prop}

/-- After the action, a task does what it left. -/
theorem leaves_report (message : String) {outcome : Outcome}
    (h : Settled idle outcome e ∨ Left idle outcome e) :
    (report message outcome).Leaves Unfinished (Settled idle) e := by
  cases outcome with
  | ok output =>
    refine ⟨fun hwait => absurd hwait Bool.false_ne_true, fun time ended hended => ?_⟩
    obtain rfl : ended = e.isDone := hended
    rcases h with hsettled | ⟨hopen, hidle⟩
    · have hdone : e.isDone = true := by
        rcases hsettled with ⟨-, houtcome⟩ | ⟨-, houtcome⟩ <;> simp [Entry.isDone, houtcome]
      rw [hdone]
      exact hsettled
    · rw [hopen]
      exact (Task.leaves_success hopen _).bind fun _ _ he => .inr ⟨hidle, he⟩
  | error err =>
    simp only [report]
    rcases h with hexplains | ⟨hopen, hroot⟩
    · obtain ⟨cause, rfl, -⟩ := hexplains.marked
      exact hexplains
    · rw [hroot]
      exact (Task.leaves_fail hopen _ hroot).bind fun _ _ he => he

theorem leaves_task {c : Command} {known : c.mode.Known} {arg : Resolved} (h : Unfinished e)
    (haction : ∀ e, Unfinished e → (c.action known arg.value).Leaves Unfinished
      (fun outcome e => Settled idle outcome e ∨ Left idle outcome e) e) :
    (task c known arg).Leaves Unfinished (Settled idle) e := by
  cases herror : arg.error? with
  | some err =>
    rw [task_of_error herror]
    refine (Task.leaves_update h _).bind fun _ _ h => ?_
    exact (Task.leaves_fail h _ rfl).bind fun _ _ he => he
  | none =>
    rw [task_of_value herror]
    refine ⟨fun hwait => absurd hwait Bool.false_ne_true, fun time _ _ => ?_⟩
    have hnext : Unfinished (e.apply time (.message (label c.name arg))) := h
    refine ⟨fun hwait => absurd hwait Bool.false_ne_true, fun _ _ _ => ?_⟩
    exact (haction _ hnext).bind fun _ _ he =>
      leaves_report (label c.name arg) he

end Leaving

theorem settled_finish {idle : Prop} {outcome : Outcome} {e : Entry} (h : Settled idle outcome e)
    (time : Nat) (o : Progress.Outcome) : Settled idle outcome (e.apply time (.finish o)) := by
  have hkept : ∀ first, e.stage.outcome? = some first →
      (e.apply time (.finish o)).stage.outcome? = some first :=
    (Entry.precedes_apply e time (.finish o)).outcome
  cases outcome with
  | ok output => exact h.imp (And.imp_right (hkept _)) (And.imp_right (hkept _))
  | error err => exact ⟨h.marked, hkept _ h.outcome, h.details, h.lead⟩

theorem failed_iff_of_settled {idle : Prop} {outcome : Outcome} {e : Entry}
    (h : Settled idle outcome e) :
    e.stage.outcome? = some .failed ↔ outcome.isError = true := by
  cases outcome with
  | ok output => rcases h with ⟨-, houtcome⟩ | ⟨-, houtcome⟩ <;> simp [houtcome, Outcome.isError]
  | error err => simp [h.outcome, Outcome.isError]

/-- The actions end the entries of their tasks, or leave that to the tasks. -/
def EndsEntries (c : Command) (known : c.mode.Known) (idle : String → Prop) : Prop :=
  ∀ value e, Unfinished e → (c.action known value).Leaves Unfinished
    (fun outcome e => Settled (idle value) outcome e ∨ Left (idle value) outcome e) e

section Returned

variable {b : Backend σ} {c : Command} {known : c.mode.Known} {args : List Resolved} {w : World σ}
  {display : Display} {q : Queue σ Outcome} {idle : String → Prop}

/-- The entry of a task when all have ended. -/
theorem entry_of_returned (haction : EndsEntries c known idle)
    (h : Running.Reachable b (.start c.limit (args.map (task c known)) w display) ⟨.returned, q⟩)
    {job : Nat} {arg : Resolved} (harg : args[job]? = some arg) :
    ∃ e, q.world.entries[w.entries.length + job]? = some e ∧
      ((∃ outcome, q.slots[job]? = some (.ended (some outcome)) ∧
        Settled (idle arg.value) outcome e) ∨
      (q.slots[job]? = some (.ended none) ∧ e.stage.outcome? = some .failed)) := by
  obtain ⟨notes, hruns⟩ := Running.Runs.of_reachable h
  have hnoted : q.Noted (args.map (task c known)) w notes := Queue.Noted.of_runs hruns
  have hjob := (List.getElem?_eq_some_iff.mp harg).1
  obtain ⟨outcome?, hslot, -⟩ := (ended_of_returned h).1 job hjob
  obtain ⟨e, he, time, rfl⟩ := hnoted.shows job _ hslot
  have hfollows := hnoted.follows job _ (task c known arg) hslot (by simp [harg])
  have hleaves : (task c known arg).Leaves Unfinished (Settled (idle arg.value))
      { message := "" } := leaves_task rfl (haction arg.value)
  refine ⟨_, he, ?_⟩
  cases outcome? with
  | some outcome =>
    exact .inl ⟨outcome, hslot, settled_finish (hleaves.ended hfollows) time _⟩
  | none => exact .inr ⟨hslot, outcome_finish (hleaves.crashed hfollows) time .failed⟩

theorem entry_of_gathered (haction : EndsEntries c known idle)
    (h : Running.Reachable b (.start c.limit (args.map (task c known)) w display) ⟨.returned, q⟩)
    {r : TaskResult} (hr : r ∈ gather args q.results) :
    ∃ e, (q.world.entries.drop w.entries.length)[r.job]? = some e ∧
      ((q.slots[r.job]? ≠ some (.ended none) ∧
        Settled (idle r.argument.value) r.outcome e) ∨
      (q.slots[r.job]? = some (.ended none) ∧ r.outcome = .error lost ∧
        e.stage.outcome? = some .failed)) := by
  obtain ⟨e, he, hshows⟩ := entry_of_returned haction h (argument_of_gathered h hr)
  refine ⟨e, by rw [List.getElem?_drop, he], ?_⟩
  rcases slot_of_gathered h hr with hslot | ⟨hslot, hlost⟩
  · rcases hshows with ⟨outcome, hslot', hsettled⟩ | ⟨hslot', -⟩
    · obtain rfl : r.outcome = outcome := by simpa [hslot] using hslot'
      exact .inl ⟨by simp [hslot], hsettled⟩
    · simp [hslot] at hslot'
  · rcases hshows with ⟨outcome, hslot', -⟩ | ⟨-, hfailed⟩
    · simp [hslot] at hslot'
    · exact .inr ⟨hslot, hlost, hfailed⟩

theorem length_entries
    (h : Running.Reachable b (.start c.limit (args.map (task c known)) w display) ⟨.returned, q⟩) :
    (q.world.entries.drop w.entries.length).length = args.length := by
  have hsound : q.Sound c.limit (args.map (task c known)) w := Running.sound_of_reachable h
  have hplaced := Running.placed_of_reachable h
  obtain ⟨hlength, -, -⟩ := Running.ended_of_taken hsound hplaced.2 hplaced.1
  rw [List.length_drop, hsound.entries, Nat.add_sub_cancel_left, hlength, List.length_map]

theorem failed_of_gathered (haction : EndsEntries c known idle)
    (h : Running.Reachable b (.start c.limit (args.map (task c known)) w display) ⟨.returned, q⟩)
    {r : TaskResult} (hr : r ∈ gather args q.results) {e : Entry}
    (he : (q.world.entries.drop w.entries.length)[r.job]? = some e) :
    e.stage.outcome? = some .failed ↔ r.outcome.isError = true := by
  obtain ⟨e', he', hcase⟩ := entry_of_gathered haction h hr
  obtain rfl : e = e' := Option.some.inj (he.symm.trans he')
  rcases hcase with ⟨-, hsettled⟩ | ⟨-, hlost, houtcome⟩
  · exact failed_iff_of_settled hsettled
  · simp [hlost, houtcome, Outcome.isError]

/-- As many entries failed as results are failures. -/
theorem countP_failed (haction : EndsEntries c known idle)
    (h : Running.Reachable b (.start c.limit (args.map (task c known)) w display) ⟨.returned, q⟩) :
    (q.world.entries.drop w.entries.length).countP (fun e => e.stage.outcome? = some .failed) =
      failedCount (gather args q.results) := by
  have hperm := perm_of_returned h
  rw [← length_entries h] at hperm
  rw [← countP_range_getElem?, ← hperm.countP_eq, List.countP_map]
  refine List.countP_congr fun r hr => ?_
  obtain ⟨e, he, -⟩ := entry_of_gathered haction h hr
  have hiff := failed_of_gathered haction h hr he
  simpa only [Function.comp, he, Option.any_some, decide_eq_true_eq] using hiff

end Returned

end Dispatch

/-- A built-in command whose arguments were looked up, in every order in which its tasks may run. The
entry of a task failed if and only if the task did. Each failure is marked as handled once, and the entry
shows it unless the task crashed. An entry ends with a warning if the server was already as it should be,
and else with success. -/
theorem Action.entries_of_resolved {b : Backend σ} {p : WaitPolicy} {a : Action}
    {raw : List String} {world w : World σ} {display : Display} {known : a.mode.Known}
    {found : List Resolved}
    (hresolve : runAlone b none (Dispatch.resolve raw a.mode) world =
      (some (.ok (known, found)), w)) :
    let args := Dispatch.orEmpty found
    let start := Running.start a.limit (args.map (Dispatch.task (a.command p) known)) w display
    (∃ q, Running.Reachable b start ⟨.returned, q⟩ ∧
      Dispatch.run b (a.command p) raw world display =
        .finished (Dispatch.gather args q.results) q) ∧
    ∀ q : Queue σ Outcome, Running.Reachable b start ⟨.returned, q⟩ →
      let results := Dispatch.gather args q.results
      let entries := q.world.entries.drop w.entries.length
      (results.map (·.job)).Perm (List.range entries.length) ∧
      entries.countP (fun e => e.stage.outcome? = some .failed) = Dispatch.failedCount results ∧
      ∀ r ∈ results, args[r.job]? = some r.argument ∧ ∃ e, entries[r.job]? = some e ∧
        (e.stage.outcome? = some .failed ↔ r.outcome.isError = true) ∧
        match r.outcome with
        | .error err => (∃ cause, err = .handled cause ∧ cause.isHandled = false) ∧
          (q.slots[r.job]? ≠ some (.ended none) → e.details = err.message ∧ e.lead = "error: ")
        | .ok _ =>
          (e.stage.outcome? = some .warning ↔ a.Idle known r.argument.value) ∧
          (e.stage.outcome? = some .success ↔ ¬ a.Idle known r.argument.value) := by
  intro args start
  refine ⟨Dispatch.run_of_resolved (c := a.command p) hresolve, fun q h => ?_⟩
  intro results entries
  have hlength : entries.length = args.length := Dispatch.length_entries (c := a.command p) h
  have hperm : (results.map (·.job)).Perm (List.range entries.length) :=
    hlength ▸ Dispatch.perm_of_returned (c := a.command p) h
  have haction : Dispatch.EndsEntries (a.command p) known (a.Idle known) := fun value _ he =>
    leaves_run he p a known value
  refine ⟨hperm, Dispatch.countP_failed (c := a.command p) haction h, fun r hr =>
    ⟨Dispatch.argument_of_gathered (c := a.command p) h hr, ?_⟩⟩
  obtain ⟨e, he, hcase⟩ := Dispatch.entry_of_gathered (c := a.command p) haction h hr
  refine ⟨e, he, Dispatch.failed_of_gathered (c := a.command p) haction h hr he, ?_⟩
  split
  · rename_i err herr
    rcases hcase with ⟨-, hsettled⟩ | ⟨hslot, hlost, -⟩
    · have hexplains : Explains e err := by simpa [herr, Settled] using hsettled
      exact ⟨hexplains.marked, fun _ => ⟨hexplains.details, hexplains.lead⟩⟩
    · obtain rfl : err = Dispatch.lost := by simpa [herr] using hlost
      exact ⟨⟨_, rfl, rfl⟩, fun hne => absurd hslot hne⟩
  · rename_i output hok
    rcases hcase with ⟨-, hsettled⟩ | ⟨-, hlost, -⟩
    · rw [hok] at hsettled
      rcases hsettled with ⟨hidle, houtcome⟩ | ⟨hidle, houtcome⟩
      · simp [hidle, houtcome]
      · simp [hidle, houtcome]
    · simp [hok] at hlost

/-- Of two servers one has been started before, and the other cannot be. -/
theorem Action.entries_of_resolved_start :
    let servers : List Server := [⟨"u", "", "", "", "started", ""⟩, ⟨"v", "", "", "", "stopped", ""⟩]
    let b : Backend Unit := ⟨fun c _ s => ⟨0, s, fun _ s =>
      (match c with
        | .servers => .answer servers
        | .startServer _ => .failure (.status 409 "busy")
        | _ => .crash, s)⟩⟩
    let a : Action := .serverStart false
    let p : WaitPolicy := .ofConfig 1 1 {}
    let args : List Resolved := [⟨"u", "u", none⟩, ⟨"v", "v", none⟩]
    a.Idle ⟨some servers⟩ "u" ∧ ¬ a.Idle ⟨some servers⟩ "v" ∧
    ∃ w results q, runAlone b none (Dispatch.resolve ["u", "v"] a.mode) { state := () } =
        (some (.ok (⟨some servers⟩, args)), w) ∧
      Dispatch.run b (a.command p) ["u", "v"] { state := () } {} = .finished results q ∧
      (q.world.entries.drop w.entries.length).countP
        (fun e => e.stage.outcome? = some .failed) = Dispatch.failedCount results ∧
      ∀ r ∈ results, ∃ e, (q.world.entries.drop w.entries.length)[r.job]? = some e ∧
        (e.stage.outcome? = some .failed ↔ r.outcome.isError = true) := by
  intro servers b a p args
  obtain ⟨w, hresolve⟩ : ∃ w, runAlone b none (Dispatch.resolve ["u", "v"] a.mode) { state := () } =
      (some (.ok ((⟨some servers⟩ : Snapshot .server), args)), w) := ⟨_, rfl⟩
  obtain ⟨⟨q, hreach, hrun⟩, hall⟩ := @entries_of_resolved _ b p a _ _ w {} _ _ hresolve
  obtain ⟨-, hcount, hentries⟩ := hall q hreach
  refine ⟨⟨servers, _, rfl, rfl, rfl⟩, ?_, w, _, q, hresolve, hrun, hcount, fun r hr => ?_⟩
  · rintro ⟨listed, s, hlisted, hfind, hstate⟩
    obtain rfl : servers = listed := Option.some.inj hlisted
    obtain rfl : ⟨"v", "", "", "", "stopped", ""⟩ = s := Option.some.inj hfind
    simp at hstate
  · obtain ⟨-, e, he, hiff, -⟩ := hentries r hr
    exact ⟨e, he, hiff⟩

end Muster
