import Muster.Proofs.Candidates.Ranking
import Muster.Proofs.Dispatch.Transitions

/-! What a command that changes resources asks the service to do. Main statement: it lists the resources
once and first, and then makes only calls on resources that an argument stands for and that no other fits
as well. Each argument that stands for one resource gets its change, once, unless there is nothing to do. -/

namespace Muster

variable {σ : Type}

namespace Call

/-- Whether the call changes a server or a storage. -/
def changes : Call → Bool
  | .startServer _ => true
  | .stopServer _ _ _ => true
  | .deleteServer _ _ => true
  | .deleteStorage _ => true
  | _ => false

/-- The resource that a call is about. A listing is about none. -/
def target? : Call → Option String
  | .serverDetails uuid => some uuid
  | .startServer uuid => some uuid
  | .stopServer uuid _ _ => some uuid
  | .deleteServer uuid _ => some uuid
  | .deleteStorage uuid => some uuid
  | _ => none

end Call

theorem countP_callsOf (counts : Call → Bool) (job : Nat) (notes : List (Nat × Note)) :
    (callsOf notes).countP (fun m => counts m.call && m.job == job) =
      Program.counted counts (own job notes) := by
  calc (callsOf notes).countP (fun m => counts m.call && m.job == job)
      = (((callsOf notes).filter (·.job == job)).map (·.call)).countP counts := by
        rw [List.countP_map, List.countP_filter]
        rfl
    _ = ((own job notes).filterMap fun n => n.call?.map (·.2)).countP counts := by
        rw [calls_own]
    _ = Program.counted counts (own job notes) := by
        rw [Program.counted, ← List.map_filterMap, List.countP_map]
        rfl

namespace Action

/-- The kind of the resources that an action changes. -/
def changed? : Action → Option Kind
  | .serverStart _ => some .server
  | .serverStop _ _ => some .server
  | .serverDelete _ => some .server
  | .storageDelete => some .storage
  | _ => none

/-- The call by which an action changes a resource. -/
def change? (p : WaitPolicy) (uuid : String) : Action → Option Call
  | .serverStart _ => some (.startServer uuid)
  | .serverStop how _ => some (.stopServer uuid how p.timeout)
  | .serverDelete withStorages => some (.deleteServer uuid withStorages)
  | .storageDelete => some (.deleteStorage uuid)
  | _ => none

/-- Whether there is nothing to change: the first resource listed with the identifier is a server in the
state that the action brings it into. -/
def isIdle : Action → (k : Kind) → List k.Resource → String → Bool
  | .serverStart _, .server, servers, uuid =>
    (servers.find? fun s => s.uuid == uuid).any fun s => s.state == "started"
  | .serverStop _ _, .server, servers, uuid =>
    (servers.find? fun s => s.uuid == uuid).any fun s => s.state == "stopped"
  | _, _, _, _ => false

theorem target_of_changed {a : Action} {k : Kind} (h : a.changed? = some k) {p : WaitPolicy}
    {uuid : String} {c : Call} (hc : c ∈ a.calls p uuid) : c.target? = some uuid := by
  cases a with
  | serverStart waits =>
    simp only [calls, List.mem_cons, List.not_mem_nil, or_false] at hc
    rcases hc with rfl | rfl <;> rfl
  | serverStop how waits =>
    simp only [calls, List.mem_cons, List.not_mem_nil, or_false] at hc
    rcases hc with rfl | rfl <;> rfl
  | serverDelete withStorages =>
    obtain rfl := List.mem_singleton.mp hc
    rfl
  | storageDelete =>
    obtain rfl := List.mem_singleton.mp hc
    rfl
  | _ => simp [changed?] at h

section AtMost

theorem atMost_zero {α : Type} {p : Program α} {calls : List Call}
    (h : p.Uses (Effect.Within calls [])) (hcalls : ∀ c ∈ calls, c.changes = false) :
    p.AtMost Call.changes 0 := by
  refine .of_uses h fun e he => ?_
  cases e with
  | call c => simp [Program.weight, hcalls c he]
  | _ => rfl

theorem atMost_call (c : Call) : (Program.call c).AtMost Call.changes 1 := by
  refine ⟨?_, fun _ => trivial⟩
  simp only [Program.weight]
  split <;> omega

theorem atMost_transition (t : Transition) (p : WaitPolicy) (waits : Bool)
    {request : Program (Except ApiError Server)} (hrequest : request.AtMost Call.changes 1)
    (known : Snapshot .server) (uuid : String) :
    (t.run p waits request known uuid).AtMost Call.changes 1 := by
  rw [t.run_eq]
  have hstarted := atMost_zero (Task.uses_started (t.doing ++ serverLabel known uuid))
    (List.forall_mem_nil _)
  refine hstarted.bind (m := 1) fun _ => ?_
  split
  · have hwarning : Program.Uses (Effect.Within [] [])
        ((Task.warning (t.doing ++ serverLabel known uuid ++ t.already) "nothing to do").bind
          fun _ => (.done (.ok .none) : Program Outcome)) :=
      (Task.uses_warning _ _).bind fun _ => trivial
    exact (atMost_zero hwarning (List.forall_mem_nil _)).mono (Nat.zero_le 1)
  · refine hrequest.bind (m := 0) fun reply => ?_
    have hafter : Program.Uses (Effect.Within [.serverDetails uuid] []) _ :=
      uses_afterwards t p waits (t.doing ++ serverLabel known uuid) List.mem_cons_self reply
    exact atMost_zero hafter (by simp [Call.changes])

theorem atMost_delete (message : String) {request : Program (Except ApiError Unit)}
    (hrequest : request.AtMost Call.changes 1) :
    (delete message request).AtMost Call.changes 1 := by
  have hstarted := atMost_zero (Task.uses_started message) (List.forall_mem_nil _)
  refine hstarted.bind (m := 1) fun _ => hrequest.bind (m := 0) fun reply => ?_
  cases reply with
  | error e => exact atMost_zero (uses_giveUp message _) (List.forall_mem_nil _)
  | ok _ =>
    have hsuccess : Program.Uses (Effect.Within [] [])
        ((Task.success (message ++ ": success")).bind
          fun _ => (.done (.ok .none) : Program Outcome)) :=
      (Task.uses_success _).bind fun _ => trivial
    exact atMost_zero hsuccess (List.forall_mem_nil _)

/-- No action changes more than one resource. -/
theorem atMost_run (p : WaitPolicy) (a : Action) (known : a.mode.Known) (uuid : String) :
    (a.run p known uuid).AtMost Call.changes 1 := by
  have hquiet (h : ∀ c ∈ a.calls p uuid, c.changes = false) :
      (a.run p known uuid).AtMost Call.changes 1 :=
    (atMost_zero (uses_run p a known uuid) h).mono (Nat.zero_le 1)
  cases a with
  | serverStart waits => exact atMost_transition starting p waits (atMost_call _) known uuid
  | serverStop how waits => exact atMost_transition stopping p waits (atMost_call _) known uuid
  | serverDelete withStorages => exact atMost_delete _ (atMost_call _)
  | storageDelete => exact atMost_delete _ (atMost_call _)
  | _ => exact hquiet (by simp [calls, Call.changes])

end AtMost

section Carried

/-- Some calls have carried an action out, which takes none of them if there is nothing to change. -/
def Carried (a : Action) (p : WaitPolicy) (uuid : String) (idle : Prop) (made : List Exchange) : Prop :=
  (idle ∧ (made.map (·.call)).filter Call.changes = []) ∨
    (¬ idle ∧ (made.map (·.call)).filter Call.changes = (a.change? p uuid).toList)

theorem makes_delete (message : String) {carried : List Exchange → Prop}
    {request : Program (Except ApiError Unit)}
    (hrequest : request.Makes carried (fun _ m => carried m) []) :
    (delete message request).Makes carried (fun _ m => carried m) [] := by
  refine (Task.makes_started message).bind fun _ m hm => ?_
  obtain rfl := hm
  refine hrequest.bind fun reply m hm => ?_
  cases reply with
  | error e =>
    refine (makes_giveUp message _).imp fun _ m' hm' => ?_
    rwa [hm'.2]
  | ok _ =>
    refine (Task.makes_success _).bind fun _ m' hm' => ?_
    obtain rfl := hm'
    exact hm

theorem carried_of_settles {p : WaitPolicy} {a : Action} {o : Order} (ho : a.order? p = some o)
    {uuid : String} {idle : Prop} {outcome : Outcome} {made : List Exchange}
    (h : o.Settles uuid idle outcome made) : a.Carried p uuid idle made := by
  rcases h with ⟨hidle, rfl, -⟩ | ⟨hidle, first, polls, rfl, hcall, hpolls, -⟩
  · exact .inl ⟨hidle, rfl⟩
  · have hquiet : (polls.map (·.call)).filter Call.changes = [] := by
      refine List.filter_eq_nil_iff.mpr fun c hc => ?_
      obtain ⟨x, hx, rfl⟩ := List.mem_map.mp hc
      simp [hpolls x hx, Call.changes]
    refine .inr ⟨hidle, ?_⟩
    rw [List.map_cons, hcall]
    cases a with
    | serverStart waits =>
      cases ho
      exact congrArg (_ :: ·) hquiet
    | serverStop how waits =>
      cases ho
      exact congrArg (_ :: ·) hquiet
    | _ => simp [order?] at ho

/-- Every action that changes resources makes its change, unless there is nothing to change. -/
theorem makes_carried {a : Action} {k : Kind} (hchanges : a.changed? = some k) (p : WaitPolicy)
    (known : a.mode.Known) (uuid : String) :
    (a.run p known uuid).Makes (a.Carried p uuid (a.Idle known uuid))
      (fun _ m => a.Carried p uuid (a.Idle known uuid) m) [] := by
  have hordered {o : Order} (ho : a.order? p = some o) :
      (a.run p known uuid).Makes (a.Carried p uuid (a.Idle known uuid))
        (fun _ m => a.Carried p uuid (a.Idle known uuid) m) [] :=
    (makes_ordered ho known uuid).mono (fun _ => carried_of_settles ho) fun _ _ =>
      carried_of_settles ho
  have hcalled (c : Call) (hc : a.change? p uuid = some c) (hchange : c.changes = true)
      (hidle : ¬ a.Idle known uuid) (reply? : Option (Except ApiError c.Answer)) :
      a.Carried p uuid (a.Idle known uuid) [⟨c, reply?⟩] :=
    .inr ⟨hidle, by simp [hc, hchange]⟩
  cases a with
  | serverStart waits => exact hordered rfl
  | serverStop how waits => exact hordered rfl
  | serverDelete withStorages =>
    have hmade := hcalled (.deleteServer uuid withStorages) rfl rfl id
    exact makes_delete _ (Program.makes_call _ (hmade none) fun reply => hmade (some reply))
  | storageDelete =>
    have hmade := hcalled (.deleteStorage uuid) rfl rfl id
    exact makes_delete _ (Program.makes_call _ (hmade none) fun reply => hmade (some reply))
  | _ => simp [changed?] at hchanges

end Carried

end Action

namespace Dispatch

variable {c : Command} {known : c.mode.Known} {arg : Resolved}

theorem uses_of_resolved {calls : List Call} (herror : arg.error? = none)
    (haction : (c.action known arg.value).Uses (Effect.Within calls [])) :
    (task c known arg).Uses (Effect.Within calls [arg.value]) := by
  rw [task_of_value herror]
  refine ⟨trivial, fun _ => ⟨List.mem_cons_self, fun _ => ?_⟩⟩
  exact (haction.mono fun e he => he.mono (List.Subset.refl _) (List.nil_subset _)).bind fun _ =>
    uses_report _ _

theorem atMost_of_resolved (herror : arg.error? = none)
    (haction : (c.action known arg.value).AtMost Call.changes 1) :
    (task c known arg).AtMost Call.changes 1 := by
  rw [task_of_value herror]
  refine ⟨Nat.zero_le _, fun _ => ⟨Nat.zero_le _, fun _ => ?_⟩⟩
  exact haction.bind (m := 0) fun outcome =>
    Action.atMost_zero (uses_report _ outcome) (List.forall_mem_nil _)

section Resolving

variable {k : Kind} {items : List k.Resource} {raw : String}

theorem resolveOnly_of_unique {u : String}
    (h : Candidates.bestFits k items raw = {u}) : resolveOnly k items raw = ⟨raw, u, none⟩ := by
  simp only [resolveOnly, Candidates.only_eq_ok_iff.mpr h]

theorem resolveOnly_of_not_unique (h : ∀ u, Candidates.bestFits k items raw ≠ {u}) :
    ∃ e, (resolveOnly k items raw).error? = some e := by
  cases honly : (Candidates.among k items raw).only with
  | ok u => exact absurd (Candidates.only_eq_ok_iff.mp honly) (h u)
  | error e => exact ⟨e, by simp only [resolveOnly, honly]⟩

end Resolving

end Dispatch

section Made

variable {α : Type} {m : Nat} {ps : List (Program α)} {w : World σ}
  {notes : List (Nat × Note)} {q : Queue σ α}

theorem Queue.Noted.program_of_made (h : q.Noted ps w notes) (hsound : q.Sound m ps w)
    {made : MadeCall} (hmade : made ∈ callsOf notes) :
    ∃ s p, q.slots[made.job]? = some s ∧ ps[made.job]? = some p ∧
      s.Follows p (own made.job notes) := by
  have hown := mem_own_of_mem_callsOf hmade
  have hlt : made.job < q.slots.length := by
    by_contra hle
    rw [h.fresh made.job (Nat.le_of_not_lt hle)] at hown
    exact absurd hown List.not_mem_nil
  have hstarted := hsound.started
  have hs := List.getElem?_eq_getElem hlt
  have hp := List.getElem?_eq_getElem (Nat.lt_of_lt_of_le hlt hstarted)
  exact ⟨_, _, hs, hp, h.follows _ _ _ hs hp⟩

/-- Tasks that each stand for an element that counts are no more than these elements. -/
theorem length_le_countP {β : Type} {jobs : List Nat} {xs : List β} {counts : β → Bool}
    (hnodup : jobs.Nodup) (h : ∀ j ∈ jobs, ∃ x, xs[j]? = some x ∧ counts x = true) :
    jobs.length ≤ xs.countP counts := by
  have hsub : jobs ⊆ (xs.zipIdx.filter fun x => counts x.1).map Prod.snd := by
    intro j hj
    obtain ⟨x, hx, hcounts⟩ := h j hj
    refine List.mem_map.mpr ⟨(x, j), List.mem_filter.mpr ⟨?_, hcounts⟩, rfl⟩
    exact List.mk_mem_zipIdx_iff_getElem?.mpr hx
  calc jobs.length
      ≤ ((xs.zipIdx.filter fun x => counts x.1).map Prod.snd).length :=
        (hnodup.subperm hsub).length_le
    _ = (xs.zipIdx.map Prod.fst).countP counts := by
        rw [List.length_map, ← List.countP_eq_length_filter, List.countP_map]
        rfl
    _ = xs.countP counts := by rw [List.zipIdx_map_fst]

end Made

namespace Action

open Candidates (bestFits)

variable {b : Backend σ} {p : WaitPolicy} {a : Action} {known : a.mode.Known} {k : Kind}
  {items : List k.Resource} {raw : List String} {limit : Nat} {world w : World σ}
  {notes : List (Nat × Note)} {q : Queue σ Outcome}

theorem atMost_task (p : WaitPolicy) (known : a.mode.Known) (arg : Resolved) :
    (Dispatch.task (a.command p) known arg).AtMost Call.changes 1 := by
  cases herror : arg.error? with
  | some e =>
    exact (atMost_zero (Dispatch.uses_of_unresolved herror) (List.forall_mem_nil _)).mono
      (Nat.zero_le 1)
  | none => exact Dispatch.atMost_of_resolved herror (atMost_run p a known arg.value)

theorem changes_of_job {args : List Resolved}
    (h : q.Noted (args.map (Dispatch.task (a.command p) known)) w notes)
    (hsound : q.Sound limit (args.map (Dispatch.task (a.command p) known)) w) (job : Nat) :
    (callsOf notes).countP (fun m => m.call.changes && m.job == job) ≤ 1 := by
  by_contra hmany
  obtain ⟨made, hmade, hcounts⟩ : ∃ m ∈ callsOf notes, (m.call.changes && m.job == job) = true :=
    List.countP_pos_iff.mp (by omega)
  obtain ⟨s, program, -, hprogram, hfollows⟩ := h.program_of_made hsound hmade
  obtain ⟨arg, -, rfl⟩ : ∃ arg, args[made.job]? = some arg ∧
      Dispatch.task (a.command p) known arg = program := by simpa using hprogram
  obtain rfl : made.job = job := by simp_all
  rw [countP_callsOf] at hmany
  exact hmany ((atMost_task p known arg).follows hfollows)

/-- A call is made by a task whose argument stands for one resource. -/
theorem unique_of_made
    (h : q.Noted ((raw.map (Dispatch.resolveOnly k items)).map
      (Dispatch.task (a.command p) known)) w notes)
    (hsound : q.Sound limit ((raw.map (Dispatch.resolveOnly k items)).map
      (Dispatch.task (a.command p) known)) w)
    {made : MadeCall} (hmade : made ∈ callsOf notes) :
    ∃ arg u, raw[made.job]? = some arg ∧ bestFits k items arg = {u} ∧
      made.call ∈ a.calls p u := by
  obtain ⟨s, program, -, hprogram, hfollows⟩ := h.program_of_made hsound hmade
  obtain ⟨arg, harg, rfl⟩ : ∃ arg, raw[made.job]? = some arg ∧
      Dispatch.task (a.command p) known (Dispatch.resolveOnly k items arg) = program := by
    simpa using hprogram
  have hown := mem_own_of_mem_callsOf hmade
  have hunique : ∃ u, bestFits k items arg = {u} := by
    by_contra hmany
    obtain ⟨e, herror⟩ := Dispatch.resolveOnly_of_not_unique (not_exists.mp hmany)
    have hcall : Effect.Within [] [] (.call made.call) :=
      (Dispatch.uses_of_unresolved herror).follows hfollows _ hown
    exact absurd hcall List.not_mem_nil
  obtain ⟨u, hu⟩ := hunique
  refine ⟨arg, u, harg, hu, ?_⟩
  have hresolved := Dispatch.resolveOnly_of_unique hu
  have huses : (Dispatch.task (a.command p) known (Dispatch.resolveOnly k items arg)).Uses
      (Effect.Within (a.calls p _) [_]) :=
    Dispatch.uses_of_resolved (by rw [hresolved]) (uses_run p a known _)
  have hcall := huses.follows hfollows _ hown
  rwa [hresolved] at hcall

theorem changes_of_target (hchanges : a.changed? = some k)
    (h : q.Noted ((raw.map (Dispatch.resolveOnly k items)).map
      (Dispatch.task (a.command p) known)) w notes)
    (hsound : q.Sound limit ((raw.map (Dispatch.resolveOnly k items)).map
      (Dispatch.task (a.command p) known)) w) (u : String) :
    (callsOf notes).countP (fun m => m.call.changes && decide (m.call.target? = some u)) ≤
      raw.countP fun arg => decide (bestFits k items arg = {u}) := by
  let counted := (callsOf notes).filter fun m =>
    m.call.changes && decide (m.call.target? = some u)
  -- no task changes two resources, so that these changes are of as many tasks
  have hnodup : (counted.map MadeCall.job).Nodup := by
    refine List.nodup_iff_count_le_one.mpr fun job => ?_
    calc (counted.map MadeCall.job).count job
        = (callsOf notes).countP fun m =>
            m.job == job && (m.call.changes && decide (m.call.target? = some u)) := by
          rw [List.count, List.countP_map, List.countP_filter]
          rfl
      _ ≤ (callsOf notes).countP fun m => m.call.changes && m.job == job := by
          refine List.countP_mono_left fun m _ hm => ?_
          simp only [Bool.and_eq_true] at hm ⊢
          exact ⟨hm.2.1, hm.1⟩
      _ ≤ 1 := changes_of_job h hsound job
  have hlength : (counted.map MadeCall.job).length = counted.length := List.length_map _
  rw [List.countP_eq_length_filter, ← hlength]
  refine length_le_countP hnodup fun job hjob => ?_
  obtain ⟨made, hmade, rfl⟩ := List.mem_map.mp hjob
  obtain ⟨hmade, hcounts⟩ := List.mem_filter.mp hmade
  obtain ⟨arg, v, harg, hbest, hcall⟩ := unique_of_made h hsound hmade
  have htarget := target_of_changed hchanges hcall
  simp only [Bool.and_eq_true, decide_eq_true_eq, htarget, Option.some.injEq] at hcounts
  exact ⟨arg, harg, decide_eq_true (hcounts.2 ▸ hbest)⟩

theorem idle_of_listed (hchanges : a.changed? = some k) (hraw : raw ≠ [])
    {answer : k.listing.Answer}
    (hlist : runAlone b none (Program.call k.listing) world = (some (.ok answer), w)) :
    let items := k.ofListing answer
    ∃ known : a.mode.Known,
      runAlone b none (Dispatch.resolve raw a.mode) world =
        (some (.ok (known, raw.map (Dispatch.resolveOnly k items))), w) ∧
      ∀ uuid, a.Idle known uuid ↔ a.isIdle k items uuid = true := by
  cases a with
  | serverStart waits =>
    cases hchanges
    exact ⟨_, Dispatch.search_of_listed hraw hlist, fun uuid => Snapshot.lists_iff⟩
  | serverStop how waits =>
    cases hchanges
    exact ⟨_, Dispatch.search_of_listed hraw hlist, fun uuid => Snapshot.lists_iff⟩
  | serverDelete withStorages =>
    cases hchanges
    exact ⟨_, Dispatch.search_of_listed hraw hlist, fun uuid => by simp [Idle, isIdle]⟩
  | storageDelete =>
    cases hchanges
    exact ⟨_, Dispatch.search_of_listed hraw hlist, fun uuid => by simp [Idle, isIdle]⟩
  | _ => simp [changed?] at hchanges

/-- What the task of an argument that stands for one resource has done once the queue has returned. -/
theorem carried_of_returned (hchanges : a.changed? = some k) {args : List Resolved}
    {display : Display}
    (h : Running.Runs b (.start a.limit (args.map (Dispatch.task (a.command p) known)) w display) notes
      ⟨.returned, q⟩)
    {job : Nat} {arg u : String} (harg : args[job]? = some ⟨arg, u, none⟩) :
    invocations (w.entries.length + job) (q.world.since w) = [u] ∧
    (∃ acted outcome?,
      Dispatch.Ran (a.command p) known ⟨arg, u, none⟩ (own job notes) acted outcome?) ∧
    a.Carried p u (a.Idle known u) (exchanges (own job notes)) ∧
    (exchanges (own job notes)).map (·.call) =
      ((callsOf notes).filter (·.job == job)).map (·.call) := by
  obtain ⟨rest, program, hrest, hpath⟩ :=
    Dispatch.invocations_of_returned (c := a.command p) h.reachable harg
  obtain ⟨rfl, -⟩ := (silent_run p a known u).path hpath
  obtain ⟨acted, outcome?, hran, -⟩ := Dispatch.ran_of_returned (c := a.command p) h harg rfl
  obtain ⟨ended?, -, hfollows⟩ := Dispatch.follows_of_returned (c := a.command p) h harg
  have htask : (Dispatch.task (a.command p) known ⟨arg, u, none⟩).Makes
      (a.Carried p u (a.Idle known u)) (fun _ m => a.Carried p u (a.Idle known u) m) [] :=
    Dispatch.makes_task rfl (makes_carried hchanges p known u)
  refine ⟨hrest, ⟨acted, outcome?, hran⟩, ?_, ?_⟩
  · cases ended? with
    | none => exact htask.crashed hfollows
    | some _ => exact htask.ended hfollows
  · rw [calls_own, hfollows.call_exchanges]

/-- A command that changes resources, in every order in which its tasks may run. The resources are listed
once, before all else. Each further call is about a listed resource that some argument stands for, and
was made by the task of such an argument. No resource is changed more often than there are arguments that
stand for it. The action of each of these runs to its end or crashes, and makes its change, unless there is
nothing to change. -/
theorem changes_of_listed (hchanges : a.changed? = some k) (hraw : raw ≠ [])
    {answer : k.listing.Answer} {display : Display}
    (hlist : runAlone b none (Program.call k.listing) world = (some (.ok answer), w)) :
    let items := k.ofListing answer
    let args := raw.map (Dispatch.resolveOnly k items)
    ∃ known : a.mode.Known,
      let tasks := args.map (Dispatch.task (a.command p) known)
      let start := Running.start a.limit tasks w display
      runAlone b none (Dispatch.resolve raw a.mode) world = (some (.ok (known, args)), w) ∧
      (∃ notes q, Running.Runs b start notes ⟨.returned, q⟩ ∧
        Dispatch.run b (a.command p) raw world display =
          .finished (Dispatch.gather args q.results) q) ∧
      ∀ notes r, Running.Runs b start notes r →
        let made := callsOf notes
        world.events ++ [(world.now, .called k.listing)] <+: r.queue.world.events ∧
        r.queue.world.calls =
          world.calls ++ (world.now, k.listing) :: made.map (fun m => (m.time, m.call)) ∧
        (∀ m ∈ made, ∃ arg u, raw[m.job]? = some arg ∧ bestFits k items arg = {u} ∧
          (∃ item ∈ items, k.uuid item = u) ∧ m.call.target? = some u) ∧
        (∀ u, made.countP (fun m => m.call.changes && decide (m.call.target? = some u)) ≤
          raw.countP fun arg => decide (bestFits k items arg = {u})) ∧
        (∀ job arg, raw[job]? = some arg → (∀ u, bestFits k items arg ≠ {u}) →
          ∀ m ∈ made, m.job ≠ job) ∧
        (r.position = .returned → ∀ job arg u, raw[job]? = some arg → bestFits k items arg = {u} →
          invocations (w.entries.length + job) (r.queue.world.since w) = [u] ∧
          (∃ acted outcome?,
            Dispatch.Ran (a.command p) known ⟨arg, u, none⟩ (own job notes) acted outcome?) ∧
          ((made.filter (·.job == job)).map (·.call)).filter Call.changes =
            if a.isIdle k items u then [] else (a.change? p u).toList) := by
  intro items args
  obtain ⟨known, hresolve, hidle⟩ := idle_of_listed hchanges hraw hlist
  refine ⟨known, ?_⟩
  intro tasks start
  obtain ⟨hevents, hcalls⟩ := World.recorded_of_call hlist
  refine ⟨hresolve, ?_, fun notes r hruns => ?_⟩
  · have hargs : Dispatch.orEmpty args = args :=
      Dispatch.orEmpty_of_ne_nil (by simpa [args] using hraw)
    obtain ⟨q, hreach, hrun⟩ := Dispatch.run_of_resolved (c := a.command p) hresolve
    rw [hargs] at hreach hrun
    obtain ⟨notes, hruns⟩ := Running.Runs.of_reachable hreach
    exact ⟨notes, q, hruns, hrun⟩
  intro made
  have hsound : r.queue.Sound a.limit tasks w := Running.sound_of_reachable hruns.reachable
  have hnoted : r.queue.Noted tasks w notes := .of_runs hruns
  refine ⟨hevents ▸ hsound.later, ?_, fun m hm => ?_, changes_of_target hchanges hnoted hsound,
    fun job arg harg hmany m hm hjob => ?_, fun hreturned job arg u harg hu => ?_⟩
  · rw [hnoted.calls, hcalls, times_callsOf, List.append_assoc, List.singleton_append]
  · obtain ⟨arg, u, harg, hu, hcall⟩ := unique_of_made hnoted hsound hm
    exact ⟨arg, u, harg, hu, Candidates.exists_of_mem_bestFits (hu ▸ Finset.mem_singleton_self u),
      target_of_changed hchanges hcall⟩
  · obtain ⟨arg', u, harg', hu, -⟩ := unique_of_made hnoted hsound hm
    obtain rfl : arg = arg' := by simpa [hjob, harg] using harg'
    exact hmany u hu
  · obtain ⟨position, q⟩ := r
    obtain rfl : position = .returned := hreturned
    have hresolved := Dispatch.resolveOnly_of_unique hu
    have hjob : args[job]? = some ⟨arg, u, none⟩ := by simp [args, harg, hresolved]
    obtain ⟨hinvoked, hran, hcarried, hexchanges⟩ := carried_of_returned hchanges hruns hjob
    refine ⟨hinvoked, hran, ?_⟩
    rw [Carried, hexchanges] at hcarried
    rcases hcarried with ⟨hnothing, hmade⟩ | ⟨hnothing, hmade⟩
    · rw [if_pos ((hidle u).mp hnothing)]
      exact hmade
    · rw [if_neg fun hlisted => hnothing ((hidle u).mpr hlisted)]
      exact hmade

/-- Of two servers with one title, the one that is named by its identifier is deleted. -/
theorem changes_of_listed_same_title :
    let servers : List Server := [⟨"u", "x", "", "", "", ""⟩, ⟨"v", "x", "", "", "", ""⟩]
    let b : Backend Unit := ⟨fun c _ s => ⟨0, s, fun _ s =>
      (match c with
        | .servers => .answer servers
        | .deleteServer _ _ => .answer ()
        | _ => .crash, s)⟩⟩
    let a : Action := .serverDelete false
    let p : WaitPolicy := .ofConfig 1 1 {}
    a.changed? = some .server ∧ bestFits .server servers "x" = {"u", "v"} ∧
    ∃ w made args q, runAlone b none (Program.call .servers) { state := () } =
        (some (.ok servers), w) ∧
      Dispatch.run b (a.command p) ["x", "u"] { state := () } {} =
        .finished (Dispatch.gather args q.results) q ∧
      q.world.calls = (0, .servers) :: made ∧ (∀ c ∈ made, c.2.target? = some "u") ∧
      made.countP (fun c => c.2.changes && decide (c.2.target? = some "u")) ≤ 1 ∧
      invocations (w.entries.length + 1) (q.world.since w) = ["u"] ∧
      (made.map Prod.snd).filter Call.changes = [.deleteServer "u" false] := by
  intro servers b a p
  obtain ⟨w, hlist⟩ : ∃ w, runAlone b none (Program.call .servers) { state := () } =
      (some (.ok servers), w) := ⟨_, rfl⟩
  have hboth : bestFits .server servers "x" = {"u", "v"} := by decide +kernel
  have hone : bestFits .server servers "u" = {"u"} := by decide +kernel
  have hmany : ∀ u, bestFits .server servers "x" ≠ {u} := fun u h => by
    have hcard := congrArg Finset.card (hboth.symm.trans h)
    simp at hcard
  obtain ⟨known, -, ⟨notes, q, hruns, hrun⟩, hall⟩ := @changes_of_listed _ b p a .server ["x", "u"]
    { state := () } w rfl (List.cons_ne_nil _ _) servers {} hlist
  obtain ⟨-, hcalls, hmade, hcount, hquiet, hcarried⟩ := hall notes _ hruns
  obtain ⟨hinvoked, -, hchange⟩ := hcarried rfl 1 "u" "u" rfl hone
  have hjob : ∀ m ∈ callsOf notes, m.job = 1 ∧ m.call.target? = some "u" := by
    intro m hm
    obtain ⟨arg, u, harg, hu, -, htarget⟩ := hmade m hm
    have hne : m.job ≠ 0 := hquiet 0 "x" rfl hmany m hm
    obtain ⟨hjob, rfl⟩ : m.job = 1 ∧ arg = "u" := by
      match h : m.job with
      | 0 => exact absurd h hne
      | 1 => simpa [h, eq_comm] using harg
      | n + 2 => simp [h] at harg
    rw [htarget, Finset.singleton_injective (hu.symm.trans hone)]
    exact ⟨hjob, rfl⟩
  refine ⟨rfl, hboth, w, _, _, q, hlist, hrun, hcalls, fun c hc => ?_, ?_, hinvoked, ?_⟩
  · obtain ⟨m, hm, rfl⟩ := List.mem_map.mp hc
    exact (hjob m hm).2
  · rw [List.countP_map]
    have hraw : ["x", "u"].countP (fun arg => decide (bestFits .server servers arg = {"u"})) = 1 := by
      simp [hone, hmany]
    exact hraw ▸ hcount "u"
  · have hall : (callsOf notes).filter (·.job == 1) = callsOf notes :=
      List.filter_eq_self.mpr fun m hm => beq_iff_eq.mpr (hjob m hm).1
    rw [hall] at hchange
    rw [List.map_map]
    exact hchange

end Action

end Muster
