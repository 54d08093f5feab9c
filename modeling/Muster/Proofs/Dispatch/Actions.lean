import Muster.Action.Run
import Muster.Proofs.Dispatch.Task

/-! The built-in actions on their own. Main statements: none of them calls an action in turn, however often
it checks and whatever it is answered, and each makes only its own few calls. -/

namespace Muster

section Waiting

variable {calls : List Call} {values : List String} {check : Nat → Program (Except ApiError Bool)}

theorem WaitPolicy.uses_poll (p : WaitPolicy) (target : String)
    (hcheck : ∀ n, (check n).Uses (Effect.Within calls values))
    (deadline now seen : Nat) (past : List Check) :
    (p.poll target check deadline now seen past).Uses (Effect.Within calls values) := by
  fun_induction poll p target check deadline now seen past with
  | case1 => trivial
  | case2 now seen past stop hflag ih =>
    refine (hcheck _).bind fun ready => ⟨trivial, fun time => ?_⟩
    cases ready with
    | error e => trivial
    | ok holds =>
      cases holds with
      | true => trivial
      | false =>
        change Program.Uses _ (dite _ _ _)
        split
        · trivial
        · rename_i hdeadline
          exact ⟨trivial, fun _ => ih time hdeadline⟩

theorem WaitPolicy.uses_wait (p : WaitPolicy) (target : String)
    (hcheck : ∀ n, (check n).Uses (Effect.Within calls values)) :
    (p.wait target check).Uses (Effect.Within calls values) := by
  refine ⟨trivial, fun now => ?_⟩
  change Program.Uses _ (ite _ _ _)
  split
  · trivial
  · exact p.uses_poll target hcheck _ _ _ _

end Waiting

namespace Action

/-- The calls that an action may make on a resource. -/
def calls (p : WaitPolicy) (uuid : String) : Action → List Call
  | .accountShow => [.account]
  | .serverList => [.servers]
  | .serverShow => [.serverDetails uuid]
  | .serverStart _ => [.startServer uuid, .serverDetails uuid]
  | .serverStop how _ => [.stopServer uuid how p.timeout, .serverDetails uuid]
  | .serverDelete withStorages => [.deleteServer uuid withStorages]
  | .networkList => [.networks]
  | .networkShow => []
  | .storageList => [.storages]
  | .storageShow => []
  | .storageDelete => [.deleteStorage uuid]

def succeed (message : String) (server : Server) : Program Outcome :=
  (Task.success (message ++ ": success")).bind fun _ => .done (.ok (.value server.toJson))

/-- What follows the call that changes a server. -/
def Transition.afterwards (t : Transition) (p : WaitPolicy) (waits : Bool) (message uuid : String) :
    Except ApiError Server → Program Outcome
  | .error e => giveUp message (.api e)
  | .ok server =>
    if waits then
      (Task.update (message ++ t.waiting)).bind fun _ => (awaitState p uuid t.target).bind fun
        | .error e => giveUp message e
        | .ok () => succeed message server
    else succeed message server

theorem Transition.run_eq (t : Transition) (p : WaitPolicy) (waits : Bool)
    (request : Program (Except ApiError Server)) (known : Snapshot .server) (uuid : String) :
    let message := t.doing ++ serverLabel known uuid
    t.run p waits request known uuid = (Task.started message).bind fun _ =>
      if listedAs known uuid t.target then
        (Task.warning (message ++ t.already) "nothing to do").bind fun _ => .done (.ok .none)
      else request.bind (t.afterwards p waits message uuid) := rfl

section Uses

variable {calls : List Call} {values : List String}

theorem uses_giveUp (message : String) (e : CommandError) :
    (giveUp message e).Uses (Effect.Within calls values) :=
  (Task.uses_fail message e).bind fun _ => trivial

theorem uses_succeed (message : String) (server : Server) :
    (succeed message server).Uses (Effect.Within calls values) :=
  (Task.uses_success _).bind fun _ => trivial

theorem uses_awaitState (p : WaitPolicy) {uuid : String} (state : String)
    (hcalls : .serverDetails uuid ∈ calls) :
    (awaitState p uuid state).Uses (Effect.Within calls values) := by
  have hcheck : (isIn uuid state).Uses (Effect.Within calls values) :=
    (Program.uses_call hcalls).bind fun _ => trivial
  exact (p.uses_wait _ fun _ => hcheck).bind fun _ => trivial

theorem uses_afterwards (t : Transition) (p : WaitPolicy) (waits : Bool) {uuid : String}
    (message : String) (hcalls : .serverDetails uuid ∈ calls) (reply : Except ApiError Server) :
    (t.afterwards p waits message uuid reply).Uses (Effect.Within calls values) := by
  cases reply with
  | error e => exact uses_giveUp _ _
  | ok server =>
    cases waits with
    | false => exact uses_succeed message server
    | true =>
      refine (Program.uses_change _).bind fun _ => (uses_awaitState p _ hcalls).bind fun r => ?_
      cases r with
      | error e => exact uses_giveUp _ e
      | ok _ => exact uses_succeed message server

theorem uses_transition (t : Transition) (p : WaitPolicy) (waits : Bool)
    {request : Program (Except ApiError Server)} {uuid : String}
    (hrequest : request.Uses (Effect.Within calls values))
    (hcalls : .serverDetails uuid ∈ calls) (known : Snapshot .server) :
    (t.run p waits request known uuid).Uses (Effect.Within calls values) := by
  rw [t.run_eq]
  refine (Task.uses_started _).bind fun _ => ?_
  split
  · exact (Task.uses_warning _ _).bind fun _ => trivial
  · exact hrequest.bind fun reply => uses_afterwards t p waits _ hcalls reply

theorem uses_delete (message : String) {request : Program (Except ApiError Unit)}
    (hrequest : request.Uses (Effect.Within calls values)) :
    (delete message request).Uses (Effect.Within calls values) := by
  refine (Task.uses_started _).bind fun _ => hrequest.bind fun reply => ?_
  cases reply with
  | error e => exact uses_giveUp _ _
  | ok _ => exact (Task.uses_success _).bind fun _ => trivial

theorem uses_look {c : Call} (hcalls : c ∈ calls) (view : c.Answer → Output) :
    (look c view).Uses (Effect.Within calls values) :=
  (Program.uses_call hcalls).bind fun _ => trivial

end Uses

/-- An action makes only its own calls, and calls no other action. -/
theorem uses_run (p : WaitPolicy) (a : Action) (known : a.mode.Known) (uuid : String) :
    (a.run p known uuid).Uses (Effect.Within (a.calls p uuid) []) := by
  cases a with
  | accountShow => exact uses_look List.mem_cons_self _
  | serverList => exact uses_look List.mem_cons_self _
  | serverShow => exact uses_look List.mem_cons_self _
  | serverStart waits =>
    exact uses_transition starting p waits (Program.uses_call (by simp [calls])) (by simp [calls])
      known
  | serverStop how waits =>
    exact uses_transition stopping p waits (Program.uses_call (by simp [calls])) (by simp [calls])
      known
  | serverDelete withStorages => exact uses_delete _ (Program.uses_call List.mem_cons_self)
  | networkList => exact uses_look List.mem_cons_self _
  | networkShow => trivial
  | storageList => exact uses_look List.mem_cons_self _
  | storageShow => trivial
  | storageDelete => exact uses_delete _ (Program.uses_call List.mem_cons_self)

theorem silent_run (p : WaitPolicy) (a : Action) (known : a.mode.Known) (uuid : String) :
    (a.run p known uuid).Silent := (uses_run p a known uuid).silent_of_within

end Action

end Muster
