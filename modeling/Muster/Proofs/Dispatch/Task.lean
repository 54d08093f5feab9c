import Muster.Dispatch
import Muster.Proofs.Program.Course
import Muster.Proofs.Program.Effects
import Muster.Proofs.Queue.Outcomes

/-! The paths through a program of two parts, and through the task for one argument. Main statements: the
task calls its action once, with the value of the argument, or not at all if there is none; and the action
then runs to its end, which the task tells, or crashes. -/

namespace Muster

open Progress (Entry)

variable {σ α β : Type}

namespace Program

/-- No path through the program calls an action. -/
def Silent : Program α → Prop
  | .done _ => True
  | .crash => True
  | .act e next => e.invocations = [] ∧ ∀ a, (next a).Silent

theorem Uses.silent {allowed : Effect → Prop} {p : Program α} (h : p.Uses allowed)
    (hallowed : ∀ e, allowed e → e.invocations = []) : p.Silent := by
  induction p with
  | done a => trivial
  | crash => trivial
  | act e next ih => exact ⟨hallowed e h.1, fun a => ih a (h.2 a)⟩

theorem Silent.path {p₀ p : Program α} {made : List String} (h : p₀.Silent)
    (hpath : p₀.Path made p) : made = [] ∧ p.Silent := by
  induction hpath with
  | start => exact ⟨rfl, h⟩
  | next a _ ih => exact ⟨by rw [ih.1, ih.2.1, List.append_nil], ih.2.2 a⟩

/-- Whether a program has ended or may crash at once. -/
def Halts (p : Program α) : Prop := (∃ a, p = .done a) ∨ p.MayCrash

theorem not_halts_act {e : Effect} {next : e.Answer → Program α} (h : e.mayWait = false) :
    ¬ (Program.act e next).Halts := by
  rintro (⟨a, ha⟩ | hcrash | ⟨e', next', heq, hwait⟩)
  · simp at ha
  · simp at hcrash
  · cases heq
    rw [h] at hwait
    exact absurd hwait (by decide)

theorem path_act {e : Effect} {next : e.Answer → Program α} {made : List String}
    {p : Program α} (h : (Program.act e next).Path made p) :
    (made = [] ∧ p = .act e next) ∨
      ∃ a made', made = e.invocations ++ made' ∧ (next a).Path made' p := by
  induction h with
  | start => exact .inl ⟨rfl, rfl⟩
  | @next made e' next' a _ ih =>
    right
    rcases ih with ⟨rfl, heq⟩ | ⟨a', made', rfl, hpath⟩
    · cases heq
      exact ⟨a, [], by simp, .start⟩
    · exact ⟨a', made' ++ e'.invocations, by rw [List.append_assoc], .next a hpath⟩

theorem path_of_halts {e : Effect} {next : e.Answer → Program α} {made : List String}
    {p : Program α} (hwait : e.mayWait = false) (h : (Program.act e next).Path made p)
    (hp : p.Halts) : ∃ a made', made = e.invocations ++ made' ∧ (next a).Path made' p := by
  rcases path_act h with ⟨-, rfl⟩ | h
  · exact absurd hp (not_halts_act hwait)
  · exact h

/-- A path through a program of two parts ends in the first, or leads through its end. -/
theorem path_bind {p : Program α} {f : α → Program β} {made : List String} {r : Program β}
    (h : (p.bind f).Path made r) :
    (∃ p', p.Path made p' ∧ r = p'.bind f) ∨
      ∃ a made₁ made₂, p.Path made₁ (.done a) ∧ (f a).Path made₂ r ∧ made = made₁ ++ made₂ := by
  induction h with
  | start => exact .inl ⟨p, .start, rfl⟩
  | @next made e next x _ ih =>
    rcases ih with ⟨p', hpath, heq⟩ | ⟨a, made₁, made₂, hpath, hrest, rfl⟩
    · cases p' with
      | done a =>
        have hf : (f a).Path [] (.act e next) := by
          rw [heq]
          exact .start
        exact .inr ⟨a, made, e.invocations, hpath, .next x hf, rfl⟩
      | crash => simp [Program.bind] at heq
      | act e' next' =>
        cases heq
        exact .inl ⟨next' x, .next x hpath, rfl⟩
    · exact .inr ⟨a, made₁, made₂ ++ e.invocations, hpath, .next x hrest,
        by rw [List.append_assoc]⟩

end Program

theorem CommandError.markHandled_of_not_isHandled {e : CommandError} (h : e.isHandled = false) :
    e.markHandled = .handled e := by
  cases e with
  | handled cause => simp [isHandled] at h
  | _ => rfl

theorem CommandError.markHandled_of_isHandled {e : CommandError} (h : e.isHandled = true) :
    e.markHandled = e := by
  cases e with
  | handled cause => rfl
  | _ => simp [isHandled] at h

theorem Slot.halts_of_ended {p : Program α} {made : List String} {a? : Option α}
    (h : (Slot.ended a? : Slot σ α).On p made) : ∃ p', p.Path made p' ∧ p'.Halts := by
  cases a? with
  | some a => exact ⟨.done a, h, .inl ⟨a, rfl⟩⟩
  | none =>
    obtain ⟨p', hpath, hcrash⟩ := h
    exact ⟨p', hpath, .inr hcrash⟩

/-- No calls but the given ones, and actions only on the given values. -/
def Effect.Within (calls : List Call) (values : List String) : Effect → Prop
  | .call c => c ∈ calls
  | .invoke value => value ∈ values
  | .enter _ => False
  | _ => True

theorem Effect.Within.mono {calls calls' : List Call} {values values' : List String} {e : Effect}
    (h : e.Within calls values) (hcalls : calls ⊆ calls') (hvalues : values ⊆ values') :
    e.Within calls' values' := by
  cases e with
  | call c => exact hcalls h
  | invoke value => exact hvalues h
  | enter arg => exact h
  | _ => trivial

theorem Program.Uses.silent_of_within {calls : List Call} {p : Program α}
    (h : p.Uses (Effect.Within calls [])) : p.Silent := by
  refine h.silent fun e he => ?_
  cases e with
  | invoke value => simp [Effect.Within] at he
  | _ => rfl

section Uses

variable {calls : List Call} {values : List String}

theorem Program.uses_change (c : Progress.Change) :
    (Program.change c).Uses (Effect.Within calls values) := ⟨trivial, fun _ => trivial⟩

theorem Program.uses_call {c : Call} (h : c ∈ calls) :
    (Program.call c).Uses (Effect.Within calls values) := ⟨h, fun _ => trivial⟩

namespace Task

theorem uses_started (message : String) :
    (started message).Uses (Effect.Within calls values) :=
  (Program.uses_change _).bind fun _ => Program.uses_change _

theorem uses_success (message : String) :
    (success message).Uses (Effect.Within calls values) :=
  (Program.uses_change _).bind fun _ => Program.uses_change _

theorem uses_warning (message details : String) :
    (warning message details).Uses (Effect.Within calls values) :=
  (Program.uses_change _).bind fun _ => (Program.uses_change _).bind fun _ =>
    Program.uses_change _

theorem uses_fail (message : String) (e : CommandError) :
    (fail message e).Uses (Effect.Within calls values) :=
  (Program.uses_change _).bind fun _ => (Program.uses_change _).bind fun _ =>
    (Program.uses_change _).bind fun _ => trivial

end Task

theorem Dispatch.uses_report (message : String) (outcome : Outcome) :
    (report message outcome).Uses (Effect.Within calls values) := by
  cases outcome with
  | ok output =>
    refine ⟨trivial, fun ended => ?_⟩
    cases ended with
    | true => trivial
    | false => exact (Task.uses_success _).bind fun _ => trivial
  | error e =>
    simp only [report]
    split
    · trivial
    · exact (Task.uses_fail _ _).bind fun _ => trivial

end Uses

namespace Dispatch

variable {c : Command} {known : c.mode.Known} {arg : Resolved} {made : List String}
  {p : Program Outcome}

theorem task_of_error {e : ResolutionError} (herror : arg.error? = some e) :
    task c known arg = (Task.update (label c.name arg)).bind fun _ =>
      (Task.fail (label c.name arg) (.resolution e)).bind fun e => .done (.error e) := by
  simp only [task, herror]
  rfl

theorem task_of_value (herror : arg.error? = none) :
    task c known arg =
      .act (.change (.message (label c.name arg))) fun _ => .act (.invoke arg.value) fun _ =>
        (c.action known arg.value).bind (report (label c.name arg)) := by
  simp only [task, herror]
  rfl

theorem uses_of_unresolved {e : ResolutionError} (herror : arg.error? = some e) :
    (task c known arg).Uses (Effect.Within [] []) := by
  rw [task_of_error herror]
  exact (Program.uses_change _).bind fun _ => (Task.uses_fail _ _).bind fun _ => trivial

theorem path_of_unresolved {e : ResolutionError} (herror : arg.error? = some e)
    (hpath : (task c known arg).Path made p) : made = [] :=
  ((uses_of_unresolved herror).silent_of_within.path hpath).1

/-- What else a task calls, its action does. -/
theorem path_of_resolved (herror : arg.error? = none) (hpath : (task c known arg).Path made p)
    (hp : p.Halts) :
    ∃ made' p', made = arg.value :: made' ∧ (c.action known arg.value).Path made' p' := by
  rw [task_of_value herror] at hpath
  obtain ⟨_, made₁, rfl, hinvoke⟩ := Program.path_of_halts rfl hpath hp
  obtain ⟨_, made₂, rfl, haction⟩ := Program.path_of_halts rfl hinvoke hp
  rcases Program.path_bind haction with ⟨p', hinner, -⟩ | ⟨a, made₃, made₄, hinner, hreport, rfl⟩
  · exact ⟨made₂, p', rfl, hinner⟩
  · have hsilent : (report (label c.name arg) a).Silent :=
      (uses_report _ _ : Program.Uses (Effect.Within [] []) _).silent_of_within
    obtain ⟨rfl, -⟩ := hsilent.path hreport
    exact ⟨made₃, .done a, by rw [List.append_nil]; rfl, hinner⟩

section Course

variable {entry : Entry} {notes later : List Note} {outcome : Outcome} {o? : Option Outcome}

theorem result_of_fail {message : String} {e : CommandError} {f : CommandError → Program Outcome}
    (h : ((Task.fail message e).bind f).Comes entry notes o?) :
    ∃ entry' later, (f e.markHandled).Comes entry' later o? := by
  obtain ⟨_, _, _, _, -, -, hdetails⟩ := h.of_act rfl
  obtain ⟨_, _, _, _, -, -, hfinish⟩ := hdetails.of_act rfl
  obtain ⟨_, _, _, _, -, -, hend⟩ := hfinish.of_act rfl
  exact ⟨_, _, hend⟩

/-- A task that tells an outcome ends with it. A failure counts as handled from then on. -/
theorem result_of_report {message : String} (h : (report message outcome).Comes entry later o?) :
    o? = some (outcome.mapError CommandError.markHandled) := by
  cases outcome with
  | ok output =>
    obtain ⟨_, _, ended, _, -, -, htold⟩ := h.of_act rfl
    cases ended with
    | true =>
      cases htold
      rfl
    | false =>
      obtain ⟨_, _, _, _, -, -, hfinish⟩ := htold.of_act rfl
      obtain ⟨_, _, _, _, -, -, hend⟩ := hfinish.of_act rfl
      cases hend
      rfl
  | error e =>
    simp only [report] at h
    split at h
    · rename_i hhandled
      cases h
      rw [Except.mapError, CommandError.markHandled_of_isHandled hhandled]
    · obtain ⟨_, _, hend⟩ := result_of_fail h
      cases hend
      rfl

/-- The entry of a task as the action finds it. -/
def begun (c : Command) (arg : Resolved) : Entry := { message := label c.name arg }

/-- Among the notes of its task, the action did what the given ones tell and came to an outcome, or to none
where it crashed. Before it the task told of its argument, and after it of the outcome. -/
def Ran (c : Command) (known : c.mode.Known) (arg : Resolved) (notes made : List Note)
    (outcome? : Option Outcome) : Prop :=
  let message : Effect := .change (.message (label c.name arg))
  let invoke : Effect := .invoke arg.value
  ∃ (t₁ t₂ t₃ t₄ : Nat) (later : List Note),
    notes = .tried t₁ message :: .heard t₂ message () :: .tried t₃ invoke ::
      .heard t₄ invoke () :: (made ++ later) ∧
    (c.action known arg.value).Comes (begun c arg) made outcome? ∧
    match outcome? with
    | none => later = []
    | some outcome => (report (label c.name arg) outcome).Comes
        (made.foldl Note.shown (begun c arg)) later
        (some (outcome.mapError CommandError.markHandled))

/-- A task that has ended or crashed has run its action, and came to what the action did. -/
theorem ran_of_comes (herror : arg.error? = none)
    (h : (task c known arg).Comes { message := "" } notes o?) :
    ∃ made outcome?, Ran c known arg notes made outcome? ∧
      o? = outcome?.map fun outcome => outcome.mapError CommandError.markHandled := by
  rw [task_of_value herror] at h
  obtain ⟨t₁, t₂, _, _, rfl, -, hinvoke⟩ := h.of_act rfl
  obtain ⟨t₃, t₄, _, notes, rfl, -, haction⟩ := hinvoke.of_act rfl
  rcases haction.of_bind with ⟨rfl, hcrash⟩ | ⟨made, later, outcome, rfl, hmade, hreport⟩
  · exact ⟨notes, none, ⟨t₁, t₂, t₃, t₄, [], by rw [List.append_nil]; rfl, hcrash, rfl⟩, rfl⟩
  · obtain rfl := result_of_report hreport
    exact ⟨made, some outcome, ⟨t₁, t₂, t₃, t₄, later, rfl, hmade, hreport⟩, rfl⟩

end Course

end Dispatch

end Muster
