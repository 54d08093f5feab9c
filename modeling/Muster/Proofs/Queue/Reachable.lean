import Mathlib.Logic.Relation
import Muster.Proofs.Queue.Moves

/-! What can be reached by a queue while it runs. Main statement: the run of a queue that takes tasks
in the order of their times and turns is one of its runs. -/

namespace Muster

variable {σ α : Type}

namespace Running

def Step (b : Backend σ) (r r' : Running σ α) : Prop := ∃ c, r.choose b c = some r'

abbrev Reachable (b : Backend σ) : Running σ α → Running σ α → Prop :=
  Relation.ReflTransGen (Step b)

/-- A queue that has no room, with the scheduler where it is then. -/
def rest (q : Queue σ α) : Running σ α := ⟨if q.taken = 0 then .closing else .waiting, q⟩

theorem rest_of_taken {q : Queue σ α} (h : q.taken ≠ 0) : rest q = ⟨.waiting, q⟩ := by
  simp [rest, h]

variable {b : Backend σ}

theorem Step.enter {position : Position} {q q' : Queue σ α} {i : Nat} (hdue : q.isDue i = true)
    (h : q.enter i = some q') : Step b ⟨position, q⟩ ⟨position, q'⟩ :=
  ⟨.enter i, by simp [choose, hdue, h]⟩

theorem Step.act {position : Position} {q q' : Queue σ α} {i : Nat}
    (h : q.act b i = some q') : Step b ⟨position, q⟩ ⟨position, q'⟩ :=
  ⟨.act i, by simp [choose, h]⟩

theorem Step.pass {position : Position} {q : Queue σ α} (time : Nat) :
    Step b ⟨position, q⟩ ⟨position, q.waitUntil time⟩ :=
  ⟨.pass time, rfl⟩

theorem Step.rest {q : Queue σ α} (h : q.hasRoom = false) :
    Step b ⟨.filling, q⟩ (rest q) :=
  ⟨.proceed, by simp [choose, proceed, h, Running.rest]⟩

end Running

namespace Queue

open Running

variable {b : Backend σ} {q q' : Queue σ α}

theorem spawn_of_hasRoom (h : q.hasRoom = true) : ∃ q', q.spawn = some q' := by
  cases htasks : q.tasks with
  | nil => simp [hasRoom, htasks] at h
  | cons p rest => exact ⟨_, by simp only [spawn, htasks]; rfl⟩

theorem refill_reachable (q : Queue σ α) :
    q.refill.hasRoom = false ∧ Reachable b ⟨.filling, q⟩ (rest q.refill) := by
  fun_induction refill q with
  | case1 q h hnone =>
    obtain ⟨q', hsome⟩ := spawn_of_hasRoom h
    simp [hsome] at hnone
  | case2 q h q' hsome ih =>
    refine ⟨ih.1, .head ⟨.proceed, ?_⟩ ih.2⟩
    simp [choose, proceed, h, hsome]
  | case3 q h =>
    have h := Bool.eq_false_iff.mpr h
    exact ⟨h, .single (Step.rest h)⟩

theorem catchUp_reachable (h : q.hasRoom = false) :
    q.catchUp.hasRoom = false ∧ Reachable b (rest q) (rest q.catchUp) := by
  fun_induction catchUp q with
  | case1 => exact ⟨h, .refl⟩
  | case2 q q' hjoin ih =>
    obtain ⟨hfull, hrefill⟩ := refill_reachable (b := b) q'
    obtain ⟨hroom, hcatch⟩ := ih hfull
    have htaken : q.taken ≠ 0 := by
      have := length_unjoined_join hjoin
      simp only [taken]
      omega
    refine ⟨hroom, .trans (.head ⟨.join 0, ?_⟩ hrefill) hcatch⟩
    simp [rest_of_taken htaken, choose, hjoin]

theorem unjoined_catchUp (q : Queue σ α) : q.catchUp.unjoined = [] := by
  fun_induction catchUp q with
  | case1 q h =>
    unfold join at h
    split at h
    · rename_i hnone
      exact List.length_eq_zero_iff.mp (by simpa using hnone)
    · simp at h
  | case2 _ _ _ ih => exact ih

theorem passTo_reachable (time : Nat) (hroom : q.hasRoom = false) (htaken : q.taken ≠ 0) :
    Reachable b ⟨.waiting, q⟩ ⟨.waiting, q.passTo time⟩ := by
  fun_induction passTo time q with
  | case1 q h ih =>
    have htick : Step b ⟨.waiting, q.waitUntil q.nextRender⟩
        ⟨.filling, (q.waitUntil q.nextRender).tick⟩ := ⟨.tick, rfl⟩
    have hrest : Step b ⟨.filling, (q.waitUntil q.nextRender).tick⟩
        ⟨.waiting, (q.waitUntil q.nextRender).tick⟩ :=
      rest_of_taken (q := (q.waitUntil q.nextRender).tick) htaken ▸ Step.rest hroom
    exact .head (.pass _) (.head htick (.head hrest (ih hroom htaken)))
  | case2 q h => exact .single (.pass time)

theorem foldl_earliest (cs : List (Nat × Nat × Nat)) (acc : Option (Nat × Nat × Nat)) :
    (∀ x, cs.foldl earliest acc = some x → x ∈ cs ∨ acc = some x) ∧
      (cs.foldl earliest acc = none → cs = [] ∧ acc = none) := by
  induction cs generalizing acc with
  | nil => simp
  | cons c cs ih =>
    obtain ⟨a, ha, hc⟩ : ∃ a, earliest acc c = some a ∧ (a = c ∨ acc = some a) := by
      cases acc with
      | none => exact ⟨c, rfl, .inl rfl⟩
      | some a =>
        by_cases hlt : c.1 < a.1 ∨ (c.1 = a.1 ∧ c.2.1 < a.2.1)
        · exact ⟨c, by simp only [earliest, earlier, if_pos hlt], .inl rfl⟩
        · exact ⟨a, by simp only [earliest, earlier, if_neg hlt], .inr rfl⟩
    simp only [List.foldl_cons, ha]
    obtain ⟨hsome, hnone⟩ := ih (some a)
    refine ⟨fun x hx => ?_, fun h => by simp at hnone; exact absurd h hnone⟩
    rcases hsome x hx with hx | hx
    · exact .inl (List.mem_cons_of_mem c hx)
    · obtain rfl := Option.some.inj hx
      rcases hc with rfl | hc
      · exact .inl List.mem_cons_self
      · exact .inr hc

theorem mem_dues {wake turn i : Nat} :
    (wake, turn, i) ∈ q.dues ↔ ∃ s, q.slots[i]? = some s ∧ s.due? = some (wake, turn) := by
  simp only [dues, List.mem_filterMap, Option.map_eq_some_iff, Prod.exists,
    List.mem_zipIdx_iff_getElem?, Prod.mk.injEq]
  constructor
  · rintro ⟨s, j, hs, wake, turn, hdue, rfl, rfl, rfl⟩
    exact ⟨s, hs, hdue⟩
  · rintro ⟨s, hs, hdue⟩
    exact ⟨s, i, hs, wake, turn, hdue, rfl, rfl, rfl⟩

theorem due_of_first {wake turn i : Nat} (h : q.first? = some (wake, turn, i)) :
    ∃ s, q.slots[i]? = some s ∧ s.due? = some (wake, turn) := by
  rcases (foldl_earliest q.dues none).1 _ h with h | h
  · exact mem_dues.mp h
  · simp at h

theorem active_of_first (h : q.first? = none) : q.active = 0 := by
  have hdues := ((foldl_earliest q.dues none).2 h).1
  refine List.countP_eq_zero.mpr fun s hs hactive => ?_
  obtain ⟨i, hi⟩ := List.mem_iff_getElem?.mp hs
  obtain ⟨wake, turn, hdue⟩ : ∃ wake turn, s.due? = some (wake, turn) := by
    cases s with
    | ready wake turn => exact ⟨wake, turn, rfl⟩
    | running => exact ⟨0, 0, rfl⟩
    | waiting wake turn => exact ⟨wake, turn, rfl⟩
    | ended => simp [Slot.isActive] at hactive
  have := mem_dues.mpr ⟨s, hi, hdue⟩
  simp [hdues] at this

theorem settle_set (q : Queue σ α) (i entry : Nat) (s : Slot σ α) (w : World σ)
    (halt : Halt σ α × World σ) :
    Queue.settle { q with slots := q.slots.set i s, world := w } i entry halt =
      q.settle i entry halt := by
  obtain ⟨_ | _ | _, w'⟩ := halt <;> simp [settle, close]

/-- One effect after the other, a task runs until it has to wait. -/
theorem settle_reachable (position : Position) {i entry : Nat} {p : Program α}
    (h : q.slots[i]? = some (.running entry p)) :
    let q' := q.settle i entry (advance b (some entry) p q.world)
    Reachable b ⟨position, q⟩ ⟨position, q'⟩ ∧ q'.taken = q.taken ∧ q'.hasRoom = q.hasRoom := by
  -- on the program: each effect that is answered at once is one choice of `act`
  induction p generalizing q with
  | done a =>
    have hact : q.act b i = some (q.settle i entry (.ended a, q.world)) := by simp [act, h]
    exact ⟨.single (.act hact), (turn_act hact).taken, (turn_act hact).hasRoom⟩
  | crash =>
    have hact : q.act b i = some (q.settle i entry (.crashed, q.world)) := by simp [act, h]
    exact ⟨.single (.act hact), (turn_act hact).taken, (turn_act hact).hasRoom⟩
  | act e next ih =>
    cases hbegin : q.world.begin b (some entry) e with
    | answered a w =>
      let q₁ : Queue σ α := { q with slots := q.slots.set i (.running entry (next a)), world := w }
      have hact : q.act b i = some q₁ := by simp [act, h, hbegin, q₁]
      have hrunning : q₁.slots[i]? = some (.running entry (next a)) := by
        have := (List.getElem?_eq_some_iff.mp h).1
        simp [q₁, this]
      have hsettle : q.settle i entry (advance b (some entry) (.act e next) q.world) =
          q₁.settle i entry (advance b (some entry) (next a) q₁.world) := by
        simp only [advance, hbegin]
        exact (settle_set q i entry _ w _).symm
      obtain ⟨hreach, htaken, hroom⟩ := ih a hrunning
      rw [hsettle]
      exact ⟨.head (.act hact) hreach, htaken.trans (turn_act hact).taken,
        hroom.trans (turn_act hact).hasRoom⟩
    | crashed w =>
      have hact : q.act b i = some (q.settle i entry (.crashed, w)) := by simp [act, h, hbegin]
      simp only [advance, hbegin]
      exact ⟨.single (.act hact), (turn_act hact).taken, (turn_act hact).hasRoom⟩
    | later time finish w =>
      have hact : q.act b i = some (q.settle i entry (.suspended time ⟨e, finish, next⟩, w)) := by
        simp [act, h, hbegin]
      simp only [advance, hbegin]
      exact ⟨.single (.act hact), (turn_act hact).taken, (turn_act hact).hasRoom⟩

theorem resume_reachable (position : Position) {i : Nat} (hdue : q.isDue i = true)
    (h : q.resume b i = some q') :
    Reachable b ⟨position, q⟩ ⟨position, q'⟩ ∧ q'.taken = q.taken ∧ q'.hasRoom = q.hasRoom := by
  obtain ⟨q₁, henter, rfl⟩ := Option.map_eq_some_iff.mp h
  have hsame : q₁.taken = q.taken ∧ q₁.hasRoom = q.hasRoom := by
    rcases turn_enter henter with rfl | hturn
    · exact ⟨rfl, rfl⟩
    · exact ⟨hturn.taken, hturn.hasRoom⟩
  have hstep : Step b ⟨position, q⟩ ⟨position, q₁⟩ := .enter hdue henter
  unfold carryOn
  split
  · rename_i entry p hrunning
    obtain ⟨hreach, htaken, hroom⟩ := settle_reachable (b := b) position hrunning
    exact ⟨.head hstep hreach, htaken.trans hsame.1, hroom.trans hsame.2⟩
  · exact ⟨.single hstep, hsame⟩

theorem passTo_same (time : Nat) (q : Queue σ α) :
    (q.passTo time).taken = q.taken ∧ (q.passTo time).hasRoom = q.hasRoom ∧
      (q.passTo time).slots = q.slots ∧ time ≤ (q.passTo time).world.now := by
  fun_induction passTo time q with
  | case1 q h ih => exact ih
  | case2 q h => exact ⟨rfl, rfl, rfl, Nat.le_max_right _ _⟩

theorem enter_isSome {i : Nat} {s : Slot σ α} {due : Nat × Nat} (hs : q.slots[i]? = some s)
    (hdue : s.due? = some due) : ∃ q', q.enter i = some q' := by
  cases s with
  | ready => exact ⟨_, by simp only [enter, hs]; rfl⟩
  | running => exact ⟨q, by simp only [enter, hs]⟩
  | waiting wake turn entry s =>
    simp only [enter, hs]
    split
    · exact ⟨_, rfl⟩
    · exact ⟨_, rfl⟩
  | ended => simp [Slot.due?] at hdue

theorem step_reachable (hroom : q.hasRoom = false) (h : q.step b = some q') :
    q'.hasRoom = false ∧ Reachable b (rest q) (rest q') := by
  unfold step at h
  split at h
  · simp at h
  · rename_i wake turn i hfirst
    obtain ⟨s, hs, hdue⟩ := due_of_first hfirst
    obtain ⟨htaken, hroom', hslots, hnow⟩ := passTo_same wake q
    have hnonzero : q.taken ≠ 0 := by
      have hactive : s.isActive = true := by
        cases s with
        | ended => simp [Slot.due?] at hdue
        | _ => rfl
      have : 0 < q.active := List.countP_pos_iff.mpr ⟨s, List.mem_of_getElem? hs, hactive⟩
      simp only [taken]
      omega
    have hisDue : (q.passTo wake).isDue i = true := by
      simp only [isDue, hslots, hs, Option.bind_some, hdue]
      exact decide_eq_true hnow
    obtain ⟨hreach, htaken', hroom''⟩ := resume_reachable .waiting hisDue h
    refine ⟨by rw [hroom'', hroom', hroom], ?_⟩
    rw [rest_of_taken hnonzero, rest_of_taken (by omega)]
    exact (passTo_reachable wake hroom hnonzero).trans hreach

theorem attend_reachable (hroom : q.hasRoom = false) :
    q.attend.hasRoom = false ∧ Reachable b (rest q) (rest q.attend) := by
  unfold attend
  split
  · exact ⟨hroom, .refl⟩
  · exact catchUp_reachable hroom

theorem taken_attend {b : Backend σ} (h : q.attend.step b = none) : q.attend.taken = 0 := by
  have hfirst : q.attend.first? = none := by
    unfold step at h
    split at h
    · assumption
    · rename_i wake turn i hfirst
      obtain ⟨s, hs, hdue⟩ := due_of_first hfirst
      obtain ⟨_, _, hslots, _⟩ := passTo_same wake q.attend
      obtain ⟨q', henter⟩ := enter_isSome (hslots ▸ hs) hdue
      simp [resume, henter] at h
  have hunjoined : q.attend.unjoined = [] := by
    have hready : q.isReady = false := by
      cases hready : q.isReady with
      | false => rfl
      | true =>
        rw [attend, if_pos hready] at hfirst
        simp [isReady, hfirst] at hready
    rw [attend, hready, if_neg (by decide)]
    exact unjoined_catchUp q
  simp [taken, active_of_first hfirst, hunjoined]

theorem exhaust_reachable (hroom : q.hasRoom = false) :
    (q.exhaust b).taken = 0 ∧ Reachable b (rest q) (rest (q.exhaust b)) := by
  fun_induction exhaust b q with
  | case1 q h => exact ⟨taken_attend h, (attend_reachable hroom).2⟩
  | case2 q q' h ih =>
    obtain ⟨hroom', hreach⟩ := attend_reachable (b := b) hroom
    obtain ⟨hroom'', hreach'⟩ := step_reachable hroom' h
    obtain ⟨htaken, hrest⟩ := ih hroom''
    exact ⟨htaken, (hreach.trans hreach').trans hrest⟩

/-- Tasks in the order of their times and turns are one way for a queue to run. -/
theorem run_reachable (b : Backend σ) (limit : Nat) (tasks : List (Program α)) (world : World σ)
    (display : Display) :
    Reachable b (start limit tasks world display)
      ⟨.returned, run b limit tasks world display⟩ := by
  obtain ⟨hroom, hrefill⟩ := refill_reachable (b := b) (ofTasks limit tasks world display)
  obtain ⟨htaken, hexhaust⟩ := exhaust_reachable (b := b) hroom
  have hclosing : ∀ q : Queue σ α, q.taken = 0 → rest q = ⟨.closing, q⟩ := fun q h => by
    simp [rest, h]
  rw [hclosing _ htaken] at hexhaust
  exact (hrefill.trans hexhaust).tail ⟨.proceed, rfl⟩ |>.tail ⟨.proceed, rfl⟩

end Queue

end Muster
