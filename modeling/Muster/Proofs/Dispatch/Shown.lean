import Muster.Proofs.Candidates.Ranking
import Muster.Proofs.Dispatch.Entries
import Muster.Proofs.Dispatch.Exchanges

/-! Showing resources that were listed already. Main statement: whatever an argument stands for is shown,
as it was listed first. -/

namespace Muster

variable {σ : Type}

/-- What an argument of a command stands for: one resource, or all that it fits best. -/
def Mode.chosen : Mode → Candidates → Except ResolutionError (List String)
  | .none, _ => .ok []
  | .only _, c => c.only.map fun uuid => [uuid]
  | .all _, c => c.all

theorem Mode.mem_best_of_chosen {m : Mode} {c : Candidates} {uuids : List String}
    (h : m.chosen c = .ok uuids) {uuid : String} (hmem : uuid ∈ uuids) : uuid ∈ c.best := by
  cases m with
  | none =>
    cases h
    exact absurd hmem List.not_mem_nil
  | only k =>
    cases honly : c.only with
    | error e => simp [chosen, honly, Except.map] at h
    | ok u =>
      obtain rfl : [u] = uuids := by simpa [chosen, honly, Except.map] using h
      obtain rfl := List.mem_singleton.mp hmem
      exact Candidates.mem_best_of_only honly
  | all k => exact Candidates.mem_best_of_all h hmem

namespace Dispatch

/-- The arguments found that stand for something are what the given arguments stand for. -/
def Finds (m : Mode) (k : Kind) (items : List k.Resource) (raw : List String)
    (found : List Resolved) : Prop :=
  ∀ arg : Resolved, arg.error? = none →
    (arg ∈ found ↔ arg.arg ∈ raw ∧
      ∃ uuids, m.chosen (.among k items arg.arg) = .ok uuids ∧ arg.value ∈ uuids)

section Finds

variable {k : Kind} {items : List k.Resource} {raw : List String}

theorem resolveOnly_eq_iff {arg : Resolved} (herror : arg.error? = none) {x : String} :
    arg = resolveOnly k items x ↔
      arg.arg = x ∧ (Candidates.among k items x).only = .ok arg.value := by
  obtain ⟨name, value, error?⟩ := arg
  obtain rfl : error? = none := herror
  cases honly : (Candidates.among k items x).only with
  | error e => simp [resolveOnly, honly]
  | ok u => simp [resolveOnly, honly, eq_comm]

theorem mem_resolveAll_iff {arg : Resolved} (herror : arg.error? = none) {x : String} :
    arg ∈ resolveAll k items x ↔
      arg.arg = x ∧ ∃ uuids, (Candidates.among k items x).all = .ok uuids ∧ arg.value ∈ uuids := by
  obtain ⟨name, value, error?⟩ := arg
  obtain rfl : error? = none := herror
  cases hall : (Candidates.among k items x).all with
  | error e => simp [resolveAll, hall]
  | ok uuids => simp [resolveAll, hall, and_comm, eq_comm]

theorem finds_only : Finds (.only k) k items raw (raw.map (resolveOnly k items)) := by
  intro arg herror
  have hchosen : ∀ c : Candidates, (∃ uuids, (Mode.only k).chosen c = .ok uuids ∧
      arg.value ∈ uuids) ↔ c.only = .ok arg.value := by
    intro c
    cases honly : c.only with
    | error e => simp [Mode.chosen, honly, Except.map]
    | ok u => simp [Mode.chosen, honly, Except.map, eq_comm]
  rw [hchosen, List.mem_map]
  constructor
  · rintro ⟨x, hx, heq⟩
    obtain ⟨rfl, honly⟩ := (resolveOnly_eq_iff herror).mp heq.symm
    exact ⟨hx, honly⟩
  · rintro ⟨hx, honly⟩
    exact ⟨_, hx, ((resolveOnly_eq_iff herror).mpr ⟨rfl, honly⟩).symm⟩

theorem finds_all : Finds (.all k) k items raw (raw.flatMap (resolveAll k items)) := by
  intro arg herror
  rw [List.mem_flatMap]
  constructor
  · rintro ⟨x, hx, hmem⟩
    obtain ⟨rfl, hall⟩ := (mem_resolveAll_iff herror).mp hmem
    exact ⟨hx, hall⟩
  · rintro ⟨hx, hall⟩
    exact ⟨_, hx, (mem_resolveAll_iff herror).mpr ⟨rfl, hall⟩⟩

end Finds

end Dispatch

theorem Dispatch.exists_of_argument {b : Backend σ} {c : Command} {known : c.mode.Known}
    {args : List Resolved} {w : World σ} {display : Display} {q : Queue σ Outcome}
    (h : Running.Reachable b (.start c.limit (args.map (task c known)) w display) ⟨.returned, q⟩)
    {arg : Resolved} (harg : arg ∈ args) : ∃ r ∈ gather args q.results, r.argument = arg := by
  obtain ⟨job, hjob, hget⟩ := List.getElem_of_mem harg
  have hperm := perm_of_returned h
  obtain ⟨r, hr, rfl⟩ := List.mem_map.mp (hperm.mem_iff.mpr (List.mem_range.mpr hjob))
  have hargument := argument_of_gathered h hr
  rw [List.getElem?_eq_getElem hjob, hget] at hargument
  exact ⟨r, hr, (Option.some.inj hargument).symm⟩

namespace Action

/-- What an action shows of the resources that its arguments were looked up in. -/
def shown? : Action → Option ((k : Kind) × (k.Resource → Details))
  | .networkShow => some ⟨.network, networkDetails⟩
  | .storageShow => some ⟨.storage, storageDetails⟩
  | _ => none

section Shown

variable {b : Backend σ} {p : WaitPolicy} {a : Action} {k : Kind} {view : k.Resource → Details}
  {raw : List String} {world w : World σ} {display : Display}

/-- The action shows the first resource listed with the identifier that it is given. It makes no calls,
so that it cannot crash either. -/
def ShowsFirst (p : WaitPolicy) (a : Action) (known : a.mode.Known) (items : List k.Resource)
    (view : k.Resource → Details) : Prop :=
  ∀ uuid item, items.find? (fun item => k.uuid item == uuid) = some item →
    (a.run p known uuid).Makes (fun _ => False)
      (fun outcome _ => outcome = .ok (.details (view item))) []

theorem makes_lookUp {crashes : List Exchange → Prop} {items : List k.Resource} {uuid : String}
    {item : k.Resource} (h : items.find? (fun item => k.uuid item == uuid) = some item) :
    (lookUp ⟨some items⟩ uuid view).Makes crashes
      (fun outcome _ => outcome = .ok (.details (view item))) [] := by
  have hfind : (⟨some items⟩ : Snapshot k).find uuid = .ok item :=
    Snapshot.find_eq_ok.mpr ⟨items, rfl, h⟩
  rw [lookUp, hfind]
  rfl

theorem resolve_of_shown (hshown : a.shown? = some ⟨k, view⟩) (hraw : raw ≠ [])
    {answer : k.listing.Answer}
    (hlist : runAlone b none (Program.call k.listing) world = (some (.ok answer), w)) :
    ∃ (known : a.mode.Known) (args : List Resolved),
      runAlone b none (Dispatch.resolve raw a.mode) world = (some (.ok (known, args)), w) ∧
      args ≠ [] ∧ Dispatch.Finds a.mode k (k.ofListing answer) raw args ∧
      ShowsFirst p a known (k.ofListing answer) view := by
  cases a with
  | networkShow =>
    cases hshown
    refine ⟨_, _, Dispatch.search_of_listed hraw hlist, ?_, Dispatch.finds_only, ?_⟩
    · simpa using hraw
    · exact fun uuid item hitem => makes_lookUp hitem
  | storageShow =>
    cases hshown
    refine ⟨_, _, Dispatch.search_of_listed hraw hlist, ?_, Dispatch.finds_all, ?_⟩
    · exact Dispatch.flatMap_resolveAll_ne_nil _ _ hraw
    · exact fun uuid item hitem => makes_lookUp hitem
  | _ => simp [shown?] at hshown

/-- What an argument stands for is shown, in every order in which the tasks may run. -/
theorem shown_of_gathered {known : a.mode.Known} {items : List k.Resource} {args : List Resolved}
    (hfinds : Dispatch.Finds a.mode k items raw args) (hshows : ShowsFirst p a known items view)
    {q : Queue σ Outcome}
    (hreach : Running.Reachable b
      (.start a.limit (args.map (Dispatch.task (a.command p) known)) w display) ⟨.returned, q⟩)
    {r : TaskResult} (hr : r ∈ Dispatch.gather args q.results)
    (herror : r.argument.error? = none) :
    ∃ item, items.find? (fun item => k.uuid item == r.argument.value) = some item ∧
      k.uuid item = r.argument.value ∧ r.outcome = .ok (.details (view item)) := by
  have hargument := Dispatch.argument_of_gathered (c := a.command p) hreach hr
  obtain ⟨-, uuids, hchosen, hvalue⟩ := (hfinds _ herror).mp (List.mem_of_getElem? hargument)
  obtain ⟨item, hitem, huuid⟩ :=
    Candidates.find_of_mem_best (Mode.mem_best_of_chosen hchosen hvalue)
  have htask : (Dispatch.task (a.command p) known r.argument).Makes (fun _ => False)
      (fun outcome _ => outcome = .ok (.details (view item))) [] := by
    refine Dispatch.makes_task herror ((hshows _ item hitem).imp fun outcome m hm => ?_)
    obtain rfl := hm
    rfl
  obtain ⟨notes, hruns⟩ := Running.Runs.of_reachable hreach
  exact ⟨item, hitem, huuid, (Dispatch.exchanges_of_gathered (c := a.command p) hruns hr
    (htask.mono (fun _ h => h.elim) fun _ _ h => h)).1⟩

end Shown

end Action

end Muster
