import Muster.Proofs.Dispatch.Results
import Muster.Proofs.Program.Exchanges

/-! The calls of the task for one argument with their answers, and what the task comes to. Main statement:
what an action makes of its calls, its task comes to, in every order in which the tasks may run. -/

namespace Muster

variable {σ : Type}

section Telling

variable {crashes : List Exchange → Prop} {made : List Exchange}

namespace Task

theorem makes_update (message : String) :
    (update message).Makes crashes (fun _ m => m = made) made := Program.makes_change _ rfl

theorem makes_started (message : String) :
    (started message).Makes crashes (fun _ m => m = made) made := by
  refine (makes_update message).bind fun _ m hm => ?_
  obtain rfl := hm
  exact Program.makes_change .start rfl

theorem makes_success (message : String) :
    (success message).Makes crashes (fun _ m => m = made) made := by
  refine (makes_update message).bind fun _ m hm => ?_
  obtain rfl := hm
  exact Program.makes_change (.finish .success) rfl

theorem makes_details (message details lead : String) (o : Progress.Outcome) :
    ((update message).bind fun _ => (Program.change (.details details lead)).bind fun _ =>
      Program.change (.finish o)).Makes crashes (fun _ m => m = made) made := by
  refine (makes_update message).bind fun _ m hm => ?_
  obtain rfl := hm
  have hdetails : (Program.change (.details details lead)).Makes crashes (fun _ m' => m' = m) m :=
    Program.makes_change _ rfl
  refine hdetails.bind fun _ m hm => ?_
  obtain rfl := hm
  exact Program.makes_change (.finish o) rfl

theorem makes_warning (message details : String) :
    (warning message details).Makes crashes (fun _ m => m = made) made :=
  makes_details message details "" .warning

theorem makes_fail (message : String) (e : CommandError) :
    (fail message e).Makes crashes (fun e' m => e' = e.markHandled ∧ m = made) made := by
  have hfail : fail message e = ((update message).bind fun _ =>
      (Program.change (.details e.message failureLead)).bind fun _ =>
        Program.change (.finish .failed)).bind fun _ => .done e.markHandled := rfl
  rw [hfail]
  exact (makes_details message e.message failureLead .failed).bind fun _ m hm => ⟨rfl, hm⟩

end Task

namespace Dispatch

/-- After its action a task makes no calls. It marks failures as handled. -/
theorem makes_report (message : String) (outcome : Outcome) :
    (report message outcome).Makes crashes
      (fun o m => o = outcome.mapError CommandError.markHandled ∧ m = made) made := by
  cases outcome with
  | ok output =>
    refine ⟨fun hwait => absurd hwait Bool.false_ne_true, fun ended => ?_⟩
    change Program.Makes _ _ _ (made ++ [])
    rw [List.append_nil]
    cases ended with
    | true => exact ⟨rfl, rfl⟩
    | false => exact (Task.makes_success _).bind fun _ m hm => ⟨rfl, hm⟩
  | error e =>
    simp only [report]
    split
    · rename_i hhandled
      refine ⟨?_, rfl⟩
      change Except.error e = Except.error e.markHandled
      rw [CommandError.markHandled_of_isHandled hhandled]
    · refine (Task.makes_fail _ e).bind fun e' m hm => ?_
      obtain ⟨rfl, hmade⟩ := hm
      exact ⟨rfl, hmade⟩

theorem makes_task {c : Command} {known : c.mode.Known} {arg : Resolved}
    {ends : Outcome → List Exchange → Prop} (herror : arg.error? = none)
    (haction : (c.action known arg.value).Makes crashes
      (fun outcome m => ends (outcome.mapError CommandError.markHandled) m) []) :
    (task c known arg).Makes crashes ends [] := by
  rw [task_of_value herror]
  refine ⟨fun hwait => absurd hwait Bool.false_ne_true, fun _ =>
    ⟨fun hwait => absurd hwait Bool.false_ne_true, fun _ => ?_⟩⟩
  refine haction.bind fun outcome m hm => (makes_report _ outcome).imp fun o m' ho => ?_
  obtain ⟨rfl, rfl⟩ := ho
  exact hm

end Dispatch

end Telling

namespace Dispatch

/-- Of each task, what is so of its program with every answer it may get is so of its result. A task that
crashed counts as lost. -/
theorem exchanges_of_gathered {b : Backend σ} {c : Command} {known : c.mode.Known}
    {args : List Resolved} {w : World σ} {display : Display} {notes : List (Nat × Note)}
    {q : Queue σ Outcome} {ends : Outcome → List Exchange → Prop} {r : TaskResult}
    (hruns : Running.Runs b (.start c.limit (args.map (task c known)) w display) notes
      ⟨.returned, q⟩)
    (hr : r ∈ gather args q.results)
    (htask : (task c known r.argument).Makes (ends (.error lost)) ends []) :
    ends r.outcome (exchanges (own r.job notes)) ∧
      (exchanges (own r.job notes)).map (·.call) =
        (own r.job notes).filterMap fun n => n.call?.map (·.2) := by
  obtain ⟨outcome?, -, hfollows, houtcome⟩ := came_of_gathered hruns hr
  refine ⟨?_, hfollows.call_exchanges⟩
  rw [houtcome]
  cases outcome? with
  | some outcome => exact htask.ended hfollows
  | none => exact htask.crashed hfollows

end Dispatch

end Muster
