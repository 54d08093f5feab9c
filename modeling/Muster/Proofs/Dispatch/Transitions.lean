import Muster.Proofs.Dispatch.Calls
import Muster.Proofs.Dispatch.Entries
import Muster.Proofs.Dispatch.Exchanges

/-! What a task asks the service when it starts or stops a server. Main statement: it asks for nothing if
the server was listed as it should be, and else once for the change; after that it asks only for the
server's details, if it waits at all, and it succeeds if and only if the last of them showed the state that
it waited for. -/

namespace Muster

variable {σ : Type}

/-- The server that a call was answered with, or the failure. There is none without an answer. -/
def Exchange.server? : Exchange → Option (Except ApiError Server)
  | ⟨.serverDetails _, reply?⟩ => reply?
  | ⟨.startServer _, reply?⟩ => reply?
  | ⟨.stopServer _ _ _, reply?⟩ => reply?
  | _ => none

/-- The last of some calls was answered with a server in the given state. -/
def Reported (state : String) (polls : List Exchange) : Prop :=
  ∃ x s, polls.getLast? = some x ∧ x.server? = some (.ok s) ∧ s.state = state

theorem not_reported_nil (state : String) : ¬ Reported state [] := by
  rintro ⟨x, s, hlast, -⟩
  simp at hlast

theorem reported_concat {state : String} {polls : List Exchange} {x : Exchange} :
    Reported state (polls ++ [x]) ↔ ∃ s, x.server? = some (.ok s) ∧ s.state = state := by
  constructor
  · rintro ⟨y, s, hlast, hs⟩
    rw [List.getLast?_concat] at hlast
    obtain rfl := Option.some.inj hlast
    exact ⟨s, hs⟩
  · rintro ⟨s, hs⟩
    exact ⟨x, s, List.getLast?_concat, hs⟩

/-- What is asked of the service to change a server, the state that this brings the server into, and
whether the task waits until it is there. -/
structure Order where
  request : String → Call
  target : String
  waits : Bool

/-- How the answers to an order, and to the questions about the server that follow, decide what the task
comes to. -/
def Order.Decides (o : Order) (uuid : String) (outcome : Outcome) (made : List Exchange) : Prop :=
  ∃ first polls, made = first :: polls ∧ first.call = o.request uuid ∧
    (∀ x ∈ polls, x.call = .serverDetails uuid) ∧
    match first.server? with
    | none => polls = [] ∧ outcome = .error Dispatch.lost
    | some (.error e) => polls = [] ∧ outcome = .error (.handled (.api e))
    | some (.ok s) =>
      if o.waits then
        (outcome.isError = false ↔ Reported o.target polls) ∧
          ∀ output, outcome = .ok output → output = .value s.toJson
      else polls = [] ∧ outcome = .ok (.value s.toJson)

/-- After an order a task has asked for the server's details only, and the last of them showed the state
if and only if the wait has been met. -/
def Asking (first : Exchange) (uuid state : String) (met : Prop) (made : List Exchange) : Prop :=
  ∃ polls, made = first :: polls ∧ (∀ x ∈ polls, x.call = .serverDetails uuid) ∧
    (met ↔ Reported state polls)

theorem Asking.congr {first : Exchange} {uuid state : String} {met met' : Prop}
    {made : List Exchange} (h : Asking first uuid state met made) (hmet : met' ↔ met) :
    Asking first uuid state met' made := by
  obtain ⟨polls, hmade, hpolls, hreported⟩ := h
  exact ⟨polls, hmade, hpolls, hmet.trans hreported⟩

theorem Asking.next {first : Exchange} {uuid state : String} {met met' : Prop}
    {made : List Exchange} (h : Asking first uuid state met made)
    (reply? : Option (Except ApiError Server))
    (hmet : met' ↔ ∃ s, reply? = some (.ok s) ∧ s.state = state) :
    Asking first uuid state met' (made ++ [⟨.serverDetails uuid, reply?⟩]) := by
  obtain ⟨polls, rfl, hpolls, -⟩ := h
  refine ⟨polls ++ [⟨.serverDetails uuid, reply?⟩], rfl, fun x hx => ?_, ?_⟩
  · rcases List.mem_append.mp hx with hx | hx
    · exact hpolls x hx
    · rw [List.mem_singleton.mp hx]
  · rw [reported_concat]
    exact hmet

section Waiting

/-- What is so of the calls of a wait, by what is so after each of its checks. -/
structure WaitRule (crashes unmet : List Exchange → Prop)
    (after : Except ApiError Bool → List Exchange → Prop)
    (ends : Except CommandError Unit → List Exchange → Prop) : Prop where
  crashed : ∀ m, unmet m → crashes m
  again : ∀ m, after (.ok false) m → unmet m
  met : ∀ m, after (.ok true) m → ends (.ok ()) m
  failed : ∀ e m, after (.error e) m → ends (.error (.api e)) m
  late : ∀ e m, unmet m → ends (.error (.timeout e)) m

section Rule

variable {crashes unmet : List Exchange → Prop} {after : Except ApiError Bool → List Exchange → Prop}
  {ends : Except CommandError Unit → List Exchange → Prop} {made : List Exchange}
  {check : Nat → Program (Except ApiError Bool)}

theorem WaitPolicy.makes_poll (p : WaitPolicy) (target : String)
    (hrule : WaitRule crashes unmet after ends)
    (hcheck : ∀ n m, unmet m → (check n).Makes crashes after m)
    (deadline now seen : Nat) (past : List Check) (h : unmet made) :
    (p.poll target check deadline now seen past).Makes crashes (fun report m => ends report.result m)
      made := by
  fun_induction poll p target check deadline now seen past generalizing made with
  | case1 => exact hrule.late _ _ h
  | case2 now seen past stop hflag =>
    rename_i ih
    refine (hcheck _ made h).bind fun ready m hm => Program.makes_clock fun time => ?_
    cases ready with
    | error e => exact hrule.failed e m hm
    | ok holds =>
      cases holds with
      | true => exact hrule.met m hm
      | false =>
        have hunmet : unmet m := hrule.again m hm
        change Program.Makes _ _ (dite _ _ _) _
        split
        · exact hrule.late _ m hunmet
        · rename_i hdeadline
          have hsleep : (Program.sleepUntil (p.interrupts.pause (max now time) seen
              (min (max now time + p.interval) deadline)).1).Makes crashes (fun _ m' => m' = m) m :=
            Program.makes_sleepUntil _ (hrule.crashed m hunmet) rfl
          refine hsleep.bind fun _ m' hm' => ?_
          obtain rfl := hm'
          exact ih time hdeadline hunmet

theorem WaitPolicy.makes_wait (p : WaitPolicy) (target : String)
    (hrule : WaitRule crashes unmet after ends)
    (hcheck : ∀ n m, unmet m → (check n).Makes crashes after m) (h : unmet made) :
    (p.wait target check).Makes crashes (fun report m => ends report.result m) made := by
  refine Program.makes_clock fun now => ?_
  by_cases htimeout : clockSpan ≤ p.timeout
  · rw [if_pos htimeout]
    exact hrule.crashed made h
  · rw [if_neg htimeout]
    exact p.makes_poll target hrule hcheck _ _ _ _ h

theorem Action.makes_awaitState (p : WaitPolicy) {uuid state : String}
    (hrule : WaitRule crashes unmet after ends)
    (hcheck : ∀ m, unmet m → (isIn uuid state).Makes crashes after m) (h : unmet made) :
    (awaitState p uuid state).Makes crashes ends made :=
  (p.makes_wait _ hrule (fun _ => hcheck) h).bind fun _ _ hm => hm

end Rule

variable {uuid state : String} {first : Exchange} {crashes : List Exchange → Prop}
  {made : List Exchange}

theorem Action.makes_isIn (hcrash : ∀ m, Asking first uuid state False m → crashes m)
    (h : Asking first uuid state False made) :
    (isIn uuid state).Makes crashes (fun ready m => Asking first uuid state (ready = .ok true) m)
      made := by
  have hcall : (Program.call (.serverDetails uuid)).Makes crashes
      (fun reply m => m = made ++ [⟨.serverDetails uuid, some reply⟩]) made :=
    Program.makes_call (.serverDetails uuid) (hcrash _ (h.next none (by simp))) fun _ => rfl
  refine hcall.bind fun (reply : Except ApiError Server) m hm => ?_
  obtain rfl := hm
  cases reply with
  | error e => exact h.next (some (.error e)) (by simp)
  | ok s => exact h.next (some (.ok s)) (by simp)

/-- A wait ends well once a check shows the state, and not before. -/
theorem Asking.waitRule (hcrash : ∀ m, Asking first uuid state False m → crashes m) :
    WaitRule crashes (Asking first uuid state False)
      (fun ready m => Asking first uuid state (ready = .ok true) m)
      (fun result m => Asking first uuid state (result = .ok ()) m) where
  crashed := hcrash
  again _ h := h.congr (by simp)
  met _ h := h.congr (by simp)
  failed _ _ h := h.congr (by simp)
  late _ _ h := h.congr (by simp)

end Waiting

namespace Action

section Transitions

variable {crashes : List Exchange → Prop} {made : List Exchange}

theorem makes_giveUp (message : String) (e : CommandError) :
    (giveUp message e).Makes crashes (fun outcome m => outcome = .error e.markHandled ∧ m = made)
      made := by
  refine (Task.makes_fail message e).bind fun e' m hm => ?_
  obtain ⟨rfl, rfl⟩ := hm
  exact ⟨rfl, rfl⟩

theorem makes_succeed (message : String) (server : Server) :
    (succeed message server).Makes crashes
      (fun outcome m => outcome = .ok (.value server.toJson) ∧ m = made) made :=
  (Task.makes_success _).bind fun _ _ hm => ⟨rfl, hm⟩

end Transitions

end Action

namespace Order

variable {o : Order} {uuid : String} {idle : Prop} {first : Exchange} {outcome : Outcome}
  {made : List Exchange}

/-- What a task comes to that may have nothing to do. -/
def Settles (o : Order) (uuid : String) (idle : Prop) (outcome : Outcome) (made : List Exchange) :
    Prop :=
  (idle ∧ made = [] ∧ outcome = .ok .none) ∨ (¬ idle ∧ o.Decides uuid outcome made)

theorem decides_of_lost (hcall : first.call = o.request uuid) (hserver : first.server? = none) :
    o.Decides uuid (.error Dispatch.lost) [first] := by
  refine ⟨first, [], rfl, hcall, fun x hx => absurd hx List.not_mem_nil, ?_⟩
  rw [hserver]
  exact ⟨rfl, rfl⟩

theorem decides_of_refused {e : ApiError} (hcall : first.call = o.request uuid)
    (hserver : first.server? = some (.error e)) :
    o.Decides uuid (.error (.handled (.api e))) [first] := by
  refine ⟨first, [], rfl, hcall, fun x hx => absurd hx List.not_mem_nil, ?_⟩
  rw [hserver]
  exact ⟨rfl, rfl⟩

theorem decides_of_answered {s : Server} (hcall : first.call = o.request uuid)
    (hserver : first.server? = some (.ok s)) (hwaits : o.waits = false) :
    o.Decides uuid (.ok (.value s.toJson)) [first] := by
  refine ⟨first, [], rfl, hcall, fun x hx => absurd hx List.not_mem_nil, ?_⟩
  simp only [hserver, hwaits, Bool.false_eq_true, if_false, and_self]

theorem decides_of_asking {s : Server} (hcall : first.call = o.request uuid)
    (hserver : first.server? = some (.ok s)) (hwaits : o.waits = true)
    (hvalue : ∀ output, outcome = .ok output → output = .value s.toJson)
    (h : Asking first uuid o.target (outcome.isError = false) made) :
    o.Decides uuid outcome made := by
  obtain ⟨polls, rfl, hpolls, hreported⟩ := h
  refine ⟨first, polls, rfl, hcall, hpolls, ?_⟩
  simp only [hserver, hwaits, if_true]
  exact ⟨hreported, hvalue⟩

end Order

theorem Snapshot.lists_iff {servers : List Server} {uuid state : String} :
    Snapshot.Lists ⟨some servers⟩ uuid state ↔
      (servers.find? fun s => s.uuid == uuid).any (fun s => s.state == state) = true := by
  constructor
  · rintro ⟨listed, s, hlisted, hfind, rfl⟩
    obtain rfl : servers = listed := Option.some.inj hlisted
    simp [hfind]
  · intro h
    cases hfind : servers.find? fun s => s.uuid == uuid with
    | none => simp [hfind] at h
    | some s => exact ⟨servers, s, rfl, hfind, by simpa [hfind] using h⟩

namespace Action

section Orders

variable {o : Order} {uuid : String} {idle : Prop}

/-- What follows the order depends on its answer, and on what is asked for after that. -/
theorem makes_afterwards (t : Transition) (p : WaitPolicy) (message : String) (hidle : ¬ idle)
    (htarget : t.target = o.target) {first : Exchange} (hcall : first.call = o.request uuid)
    {reply : Except ApiError Server} (hserver : first.server? = some reply) :
    (t.afterwards p o.waits message uuid reply).Makes
      (o.Settles uuid idle (.error Dispatch.lost))
      (fun outcome m => o.Settles uuid idle (outcome.mapError CommandError.markHandled) m)
      [first] := by
  cases reply with
  | error e =>
    refine (makes_giveUp message (.api e)).imp fun outcome m hm => ?_
    obtain ⟨rfl, rfl⟩ := hm
    exact .inr ⟨hidle, Order.decides_of_refused hcall hserver⟩
  | ok s =>
    cases hwaits : o.waits with
    | false =>
      refine (makes_succeed message s).imp fun outcome m hm => ?_
      obtain ⟨rfl, rfl⟩ := hm
      exact .inr ⟨hidle, Order.decides_of_answered hcall hserver hwaits⟩
    | true =>
      have hcrash : ∀ m, Asking first uuid o.target False m →
          o.Settles uuid idle (.error Dispatch.lost) m := fun m hm =>
        .inr ⟨hidle, Order.decides_of_asking hcall hserver hwaits (by simp)
          (hm.congr (by simp [Outcome.isError]))⟩
      have hbegun : Asking first uuid o.target False [first] :=
        ⟨[], rfl, by simp, by simp [not_reported_nil]⟩
      refine (Task.makes_update _).bind fun _ m hm => ?_
      obtain rfl := hm
      rw [htarget]
      refine (makes_awaitState p (Asking.waitRule hcrash) (fun _ => makes_isIn hcrash) hbegun).bind
        fun result m hm => ?_
      cases result with
      | error e =>
        refine (makes_giveUp message e).imp fun outcome m' hm' => ?_
        obtain ⟨rfl, rfl⟩ := hm'
        exact .inr ⟨hidle, Order.decides_of_asking hcall hserver hwaits (by simp [Except.mapError])
          (hm.congr (by simp [Except.mapError, Outcome.isError]))⟩
      | ok _ =>
        refine (makes_succeed message s).imp fun outcome m' hm' => ?_
        obtain ⟨rfl, rfl⟩ := hm'
        refine .inr ⟨hidle, Order.decides_of_asking hcall hserver hwaits ?_
          (hm.congr (by simp [Except.mapError, Outcome.isError]))⟩
        intro output houtput
        exact (Except.ok.inj houtput).symm

theorem makes_transition (t : Transition) (p : WaitPolicy) (known : Snapshot .server)
    (htarget : t.target = o.target) {request : Program (Except ApiError Server)}
    (hrequest : request.Makes
      (fun m => ∃ first, m = [first] ∧ first.call = o.request uuid ∧ first.server? = none)
      (fun reply m => ∃ first, m = [first] ∧ first.call = o.request uuid ∧
        first.server? = some reply) []) :
    (t.run p o.waits request known uuid).Makes
      (o.Settles uuid (known.Lists uuid o.target) (.error Dispatch.lost))
      (fun outcome m => o.Settles uuid (known.Lists uuid o.target)
        (outcome.mapError CommandError.markHandled) m) [] := by
  rw [t.run_eq, htarget]
  refine (Task.makes_started _).bind fun _ m hm => ?_
  obtain rfl := hm
  by_cases hlisted : listedAs known uuid o.target = true
  · rw [if_pos hlisted]
    refine (Task.makes_warning _ _).bind fun _ m hm => ?_
    exact .inl ⟨listedAs_iff.mp hlisted, hm, rfl⟩
  · rw [if_neg hlisted]
    have hidle : ¬ known.Lists uuid o.target := fun hlists => hlisted (listedAs_iff.mpr hlists)
    have hcrash : ∀ m, (∃ first : Exchange, m = [first] ∧ first.call = o.request uuid ∧
        first.server? = none) → o.Settles uuid (known.Lists uuid o.target)
          (.error Dispatch.lost) m := by
      rintro m ⟨first, rfl, hcall, hserver⟩
      exact .inr ⟨hidle, Order.decides_of_lost hcall hserver⟩
    refine (hrequest.mono hcrash fun _ _ hm => hm).bind fun reply m hm => ?_
    obtain ⟨first, rfl, hcall, hserver⟩ := hm
    exact makes_afterwards t p _ hidle htarget hcall hserver

/-- The order that an action gives for a server. -/
def order? (p : WaitPolicy) : Action → Option Order
  | .serverStart waits => some ⟨.startServer, "started", waits⟩
  | .serverStop how waits => some ⟨fun uuid => .stopServer uuid how p.timeout, "stopped", waits⟩
  | _ => none

theorem makes_ordered {p : WaitPolicy} {a : Action} (ho : a.order? p = some o)
    (known : a.mode.Known) (uuid : String) :
    (a.run p known uuid).Makes
      (o.Settles uuid (a.Idle known uuid) (.error Dispatch.lost))
      (fun outcome m => o.Settles uuid (a.Idle known uuid)
        (outcome.mapError CommandError.markHandled) m) [] := by
  cases a with
  | serverStart waits =>
    cases ho
    refine makes_transition starting p known rfl (Program.makes_call (.startServer uuid) ?_ ?_)
    · exact ⟨_, rfl, rfl, rfl⟩
    · exact fun reply => ⟨_, rfl, rfl, rfl⟩
  | serverStop how waits =>
    cases ho
    refine makes_transition stopping p known rfl
      (Program.makes_call (.stopServer uuid how p.timeout) ?_ ?_)
    · exact ⟨_, rfl, rfl, rfl⟩
    · exact fun reply => ⟨_, rfl, rfl, rfl⟩
  | _ => simp [order?] at ho

end Orders

section Ordered

variable {b : Backend σ} {p : WaitPolicy} {a : Action} {o : Order} {raw : List String}
  {world w : World σ} {servers : List Server} {display : Display}

/-- A command that starts or stops servers, in every order in which its tasks may run, with every way in
which the service answers and the run is interrupted. A task calls nothing if the first server listed with
its identifier was as it should be. Else it gives its order once, and the answers decide what it comes
to. -/
theorem calls_of_ordered (ho : a.order? p = some o) (hraw : raw ≠ [])
    (hlist : runAlone b none (Program.call .servers) world = (some (.ok servers), w)) :
    let args := raw.map (Dispatch.resolveOnly .server servers)
    ∃ known : a.mode.Known,
      let tasks := args.map (Dispatch.task (a.command p) known)
      let start := Running.start a.limit tasks w display
      runAlone b none (Dispatch.resolve raw a.mode) world = (some (.ok (known, args)), w) ∧
      (∃ notes q, Running.Runs b start notes ⟨.returned, q⟩ ∧
        Dispatch.run b (a.command p) raw world display =
          .finished (Dispatch.gather args q.results) q) ∧
      ∀ (notes : List (Nat × Note)) (q : Queue σ Outcome),
        Running.Runs b start notes ⟨.returned, q⟩ →
        let results := Dispatch.gather args q.results
        q.world.calls = world.calls ++
          (world.now, .servers) :: (callsOf notes).map (fun m => (m.time, m.call)) ∧
        (results.map (·.job)).Perm (List.range args.length) ∧
        ∀ r ∈ results, args[r.job]? = some r.argument ∧ (r.argument.error? = none →
          let uuid := r.argument.value
          let made := exchanges (own r.job notes)
          made.map (·.call) = ((callsOf notes).filter (·.job == r.job)).map (·.call) ∧
          if (servers.find? fun s => s.uuid == uuid).any (fun s => s.state == o.target) then
            made = [] ∧ r.outcome = .ok .none
          else o.Decides uuid r.outcome made) := by
  intro args
  obtain ⟨known, hresolve, hidle⟩ : ∃ known : a.mode.Known,
      runAlone b none (Dispatch.resolve raw a.mode) world = (some (.ok (known, args)), w) ∧
      ∀ uuid, a.Idle known uuid ↔
        (servers.find? fun s => s.uuid == uuid).any (fun s => s.state == o.target) = true := by
    cases a with
    | serverStart waits =>
      cases ho
      exact ⟨_, Dispatch.search_of_listed hraw hlist, fun uuid => Snapshot.lists_iff⟩
    | serverStop how waits =>
      cases ho
      exact ⟨_, Dispatch.search_of_listed hraw hlist, fun uuid => Snapshot.lists_iff⟩
    | _ => simp [order?] at ho
  refine ⟨known, ?_⟩
  intro tasks start
  refine ⟨hresolve, ?_, fun notes q hruns => ?_⟩
  · have hargs : args ≠ [] := by simpa [args] using hraw
    obtain ⟨q, hreach, hrun⟩ := Dispatch.run_of_found (c := a.command p) hresolve hargs
    obtain ⟨notes, hruns⟩ := Running.Runs.of_reachable hreach
    exact ⟨notes, q, hruns, hrun⟩
  intro results
  have hnoted : q.Noted tasks w notes := .of_runs hruns
  refine ⟨?_, Dispatch.perm_of_returned (c := a.command p) hruns.reachable, fun r hr =>
    ⟨Dispatch.argument_of_gathered (c := a.command p) hruns.reachable hr, fun herror => ?_⟩⟩
  · rw [hnoted.calls, (World.recorded_of_call hlist).2, times_callsOf, List.append_assoc,
      List.singleton_append]
  intro uuid made
  have htask : (Dispatch.task (a.command p) known r.argument).Makes
      (o.Settles uuid (a.Idle known uuid) (.error Dispatch.lost))
      (o.Settles uuid (a.Idle known uuid)) [] :=
    Dispatch.makes_task herror (makes_ordered ho known uuid)
  obtain ⟨hsettles, hcalls⟩ :=
    Dispatch.exchanges_of_gathered (c := a.command p) hruns hr htask
  refine ⟨hcalls.trans (calls_own r.job notes).symm, ?_⟩
  rcases hsettles with ⟨hlisted, hmade⟩ | ⟨hlisted, hdecides⟩
  · rw [if_pos ((hidle uuid).mp hlisted)]
    exact hmade
  · rw [if_neg fun hany => hlisted ((hidle uuid).mpr hany)]
    exact hdecides

/-- Of two servers to be started one runs already, and the other does when it is asked for. -/
theorem calls_of_ordered_two :
    let stopped : Server := ⟨"u", "", "", "", "stopped", ""⟩
    let servers : List Server := [stopped, ⟨"v", "", "", "", "started", ""⟩]
    let b : Backend Unit := ⟨fun c _ s => ⟨0, s, fun _ s =>
      (match c with
        | .servers => .answer servers
        | .startServer _ => .answer stopped
        | .serverDetails _ => .answer { stopped with state := "started" }
        | _ => .crash, s)⟩⟩
    let a : Action := .serverStart true
    let p : WaitPolicy := .ofConfig 1 1 {}
    let o : Order := ⟨.startServer, "started", true⟩
    a.order? p = some o ∧
    ∃ w notes results q, runAlone b none (Program.call .servers) { state := () } =
        (some (.ok servers), w) ∧
      Dispatch.run b (a.command p) ["u", "v"] { state := () } {} = .finished results q ∧
      ∀ r ∈ results,
        (r.job = 0 → o.Decides "u" r.outcome (exchanges (own 0 notes))) ∧
        (r.job = 1 → exchanges (own 1 notes) = [] ∧ r.outcome = .ok .none) := by
  intro stopped servers b a p o
  obtain ⟨w, hlist⟩ : ∃ w, runAlone b none (Program.call .servers) { state := () } =
      (some (.ok servers), w) := ⟨_, rfl⟩
  have hargs : ["u", "v"].map (Dispatch.resolveOnly .server servers) =
      [⟨"u", "u", none⟩, ⟨"v", "v", none⟩] := by decide +kernel
  obtain ⟨known, -, ⟨notes, q, hruns, hrun⟩, hall⟩ := @calls_of_ordered _ b p a o ["u", "v"]
    { state := () } w servers {} rfl (List.cons_ne_nil _ _) hlist
  obtain ⟨-, -, hresults⟩ := hall notes q hruns
  have ho : a.order? p = some o := rfl
  refine ⟨ho, w, notes, _, q, hlist, hrun, ?_⟩
  rintro ⟨job, argument, outcome⟩ hr
  obtain ⟨harg, hmade⟩ := hresults _ hr
  rw [hargs] at harg
  refine ⟨fun hjob => ?_, fun hjob => ?_⟩
  · obtain rfl : job = 0 := hjob
    obtain rfl : ⟨"u", "u", none⟩ = argument := Option.some.inj harg
    exact (hmade rfl).2
  · obtain rfl : job = 1 := hjob
    obtain rfl : ⟨"v", "v", none⟩ = argument := Option.some.inj harg
    exact (hmade rfl).2

end Ordered

end Action

end Muster
