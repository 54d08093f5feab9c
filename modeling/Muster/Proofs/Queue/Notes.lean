import Muster.Proofs.Queue.Placed

/-! What each task of a queue does, effect by effect, however the tasks are ordered. Main statement: a task
keeps to its program, its entry shows the changes that it made, and the service gets the calls of all
tasks in the order in which they made them. -/

namespace Muster

variable {σ α : Type}

/-- Something that a task did: it began an effect, it went on with the answer, or it crashed in place of
one. -/
inductive Note where
  | tried (time : Nat) (e : Effect)
  | heard (time : Nat) (e : Effect) (a : e.Answer)
  | crashed (time : Nat) (e : Effect)

def Note.call? : Note → Option (Nat × Call)
  | .tried time (.call c) => some (time, c)
  | _ => none

namespace Effect

/-- What an entry shows after an effect of its task. -/
def shown (time : Nat) (entry : Progress.Entry) : Effect → Progress.Entry
  | .change c => entry.apply time c
  | _ => entry

/-- An answer tells the truth about the entry of the task. -/
def Agrees (entry : Progress.Entry) : (e : Effect) → e.Answer → Prop
  | .hasEnded, ended => ended = entry.isDone
  | _, _ => True

theorem shown_of_mayWait {e : Effect} (h : e.mayWait = true) (time : Nat)
    (entry : Progress.Entry) : e.shown time entry = entry := by
  cases e with
  | change => simp [mayWait] at h
  | _ => rfl

theorem agrees_of_mayWait {e : Effect} (h : e.mayWait = true) (entry : Progress.Entry)
    (a : e.Answer) : e.Agrees entry a := by
  cases e with
  | hasEnded => simp [mayWait] at h
  | _ => trivial

end Effect

def Note.shown (entry : Progress.Entry) : Note → Progress.Entry
  | .heard time e _ => e.shown time entry
  | .tried _ _ => entry
  | .crashed _ _ => entry

/-- What the notes of a task leave on its entry, which is empty at first. -/
def shown (notes : List Note) : Progress.Entry := notes.foldl Note.shown { message := "" }

/-- What is left of a program after the effects that some notes tell of. -/
inductive Program.Trail (p₀ : Program α) : List Note → Program α → Prop where
  | start : Trail p₀ [] p₀
  | next {notes : List Note} {e : Effect} {next : e.Answer → Program α} {time time' : Nat}
    {a : e.Answer} : Trail p₀ notes (.act e next) → e.Agrees (shown notes) a →
    Trail p₀ (notes ++ [.tried time e, .heard time' e a]) (next a)

/-- The last note is of an effect that has not been answered. -/
def Program.Awaits (p₀ : Program α) (notes : List Note) (p : Program α) : Prop :=
  ∃ (notes' : List Note) (time : Nat) (e : Effect) (next : e.Answer → Program α),
    notes = notes' ++ [.tried time e] ∧ p = .act e next ∧ e.mayWait = true ∧ p₀.Trail notes' p

/-- The last effect has crashed the program in place of an answer. -/
def Program.CrashesIn (p₀ : Program α) (notes : List Note) : Prop :=
  ∃ (notes' : List Note) (time : Nat) (e : Effect) (next : e.Answer → Program α),
    notes = notes' ++ [.crashed time e] ∧ p₀.Awaits notes' (.act e next)

namespace Slot

/-- A task keeps to its program. -/
def Follows (p₀ : Program α) (notes : List Note) : Slot σ α → Prop
  | .ready _ _ _ p => notes = [] ∧ p = p₀
  | .running _ p => p₀.Trail notes p
  | .waiting _ _ _ s => p₀.Awaits notes s.program
  | .ended (some a) => p₀.Trail notes (.done a)
  | .ended none => p₀.Trail notes .crash ∨ p₀.CrashesIn notes

theorem Follows.cases {p₀ : Program α} {notes : List Note} {s : Slot σ α} (h : s.Follows p₀ notes) :
    (∃ p, p₀.Trail notes p) ∨ (∃ p, p₀.Awaits notes p) ∨ p₀.CrashesIn notes := by
  cases s with
  | ready =>
    rw [h.1]
    exact .inl ⟨p₀, .start⟩
  | running => exact .inl ⟨_, h⟩
  | waiting => exact .inr (.inl ⟨_, h⟩)
  | ended a? =>
    cases a? with
    | some => exact .inl ⟨_, h⟩
    | none => exact h.imp (fun htrail => ⟨_, htrail⟩) .inr

/-- An entry shows what its task made it show. It is ended with the task. -/
def Shows (made e : Progress.Entry) : Slot σ α → Prop
  | .ended a? => ∃ time, e = made.apply time (.finish (if a?.isSome then .success else .failed))
  | _ => e = made

end Slot

def Queue.heard (i : Nat) (q : Queue σ α) : List Note :=
  match q.slots[i]? with
  | some (.waiting _ _ _ s) =>
    match s.finish q.world.now q.world.state with
    | (some a, _) => [.heard q.world.now s.effect a]
    | (none, _) => [.crashed q.world.now s.effect]
  | _ => []

def Queue.tried (b : Backend σ) (i : Nat) (q : Queue σ α) : List Note :=
  match q.slots[i]? with
  | some (.running entry (.act e _)) =>
    match q.world.begin b (some entry) e with
    | .answered a _ => [.tried q.world.now e, .heard q.world.now e a]
    | .crashed _ => [.tried q.world.now e, .crashed q.world.now e]
    | .later _ _ _ => [.tried q.world.now e]
  | _ => []

/-- What a choice lets a task do, and which. -/
def Running.notes (b : Backend σ) (r : Running σ α) : Choice → List (Nat × Note)
  | .enter i => (r.queue.heard i).map (i, ·)
  | .act i => (r.queue.tried b i).map (i, ·)
  | _ => []

/-- What can be reached, with what the tasks do on the way. -/
inductive Running.Runs (b : Backend σ) (r₀ : Running σ α) :
    List (Nat × Note) → Running σ α → Prop where
  | start : Runs b r₀ [] r₀
  | next {notes : List (Nat × Note)} {r r' : Running σ α} {c : Choice} :
    Runs b r₀ notes r → r.choose b c = some r' → Runs b r₀ (notes ++ r.notes b c) r'

def own (job : Nat) (notes : List (Nat × Note)) : List Note :=
  notes.filterMap fun n => if n.1 = job then some n.2 else none

namespace Running.Runs

variable {b : Backend σ} {r₀ r : Running σ α}

theorem reachable {notes : List (Nat × Note)} (h : Runs b r₀ notes r) : Reachable b r₀ r := by
  induction h with
  | start => exact .refl
  | next _ hc ih => exact ih.tail ⟨_, hc⟩

theorem of_reachable (h : Reachable b r₀ r) : ∃ notes, Runs b r₀ notes r := by
  induction h with
  | refl => exact ⟨[], .start⟩
  | tail _ hstep ih =>
    obtain ⟨notes, hruns⟩ := ih
    obtain ⟨c, hc⟩ := hstep
    exact ⟨_, hruns.next hc⟩

end Running.Runs

@[simp] theorem own_append (job : Nat) (notes notes' : List (Nat × Note)) :
    own job (notes ++ notes') = own job notes ++ own job notes' := List.filterMap_append

theorem own_self (job : Nat) (notes : List Note) : own job (notes.map (job, ·)) = notes := by
  simp [own, List.filterMap_map]

theorem own_other {job other : Nat} (h : other ≠ job) (notes : List Note) :
    own other (notes.map (job, ·)) = [] := by
  simp [own, List.filterMap_map, Ne.symm h]

@[simp] theorem shown_tried (notes : List Note) (time : Nat) (e : Effect) :
    shown (notes ++ [.tried time e]) = shown notes := by
  simp [shown, Note.shown]

@[simp] theorem shown_crashed (notes : List Note) (time : Nat) (e : Effect) :
    shown (notes ++ [.crashed time e]) = shown notes := by
  simp [shown, Note.shown]

@[simp] theorem shown_heard (notes : List Note) (time : Nat) (e : Effect) (a : e.Answer) :
    shown (notes ++ [.heard time e a]) = e.shown time (shown notes) := by
  simp [shown, Note.shown]

namespace World

variable {w w' : World σ}

theorem calls_record (w : World σ) (e : Event) :
    (w.record e).calls = w.calls ++ match e with
      | .called c => [(w.now, c)]
      | _ => [] := by
  simp only [calls, events_record, List.filterMap_append]
  cases e <;> rfl

theorem calls_of_journal (h : w'.journal = w.journal) : w'.calls = w.calls := by
  simp [calls, events, h]

def triedCalls (time : Nat) (e : Effect) : List (Nat × Call) := (Note.tried time e).call?.toList

/-- An effect that is answered at once changes the entry of the task as it says, and no other. -/
theorem answered_exactly {b : Backend σ} {entry : Nat} {e : Effect} {a : e.Answer}
    (h : w.begin b (some entry) e = .answered a w') :
    w'.entries = w.entries.modify entry (e.shown w.now) ∧
      w'.calls = w.calls ++ triedCalls w.now e ∧
      ∀ shown, w.entries[entry]? = some shown → e.Agrees shown a := by
  have hid : w.entries = w.entries.modify entry fun e => e := (List.modify_id entry _).symm
  have hcalls (made : World σ) (hjournal : made.journal = w.journal) :
      made.calls = w.calls ++ [] := by rw [calls_of_journal hjournal, List.append_nil]
  cases e with
  | clock =>
    cases h
    exact ⟨hid, hcalls w rfl, fun _ _ => trivial⟩
  | sleepUntil time =>
    simp only [begin] at h
    split at h
    · cases h
      exact ⟨hid, hcalls w rfl, fun _ _ => trivial⟩
    · simp at h
  | call c =>
    simp only [begin] at h
    split at h
    · split at h
      · cases h
        exact ⟨hid, calls_record w (.called c), fun _ _ => trivial⟩
      · simp at h
    · simp at h
  | change c =>
    cases h
    exact ⟨rfl, hcalls (w.changeEntry entry c) rfl, fun _ _ => trivial⟩
  | hasEnded =>
    cases h
    refine ⟨hid, hcalls w rfl, fun shown hshown => ?_⟩
    simp only [Option.bind_some, hshown]
    rfl
  | enter arg =>
    cases h
    exact ⟨hid, calls_record w (.entered arg), fun _ _ => trivial⟩
  | invoke value =>
    cases h
    exact ⟨hid, calls_record w (.invoked (some entry) value), fun _ _ => trivial⟩

theorem crashed_exactly {b : Backend σ} {entry : Nat} {e : Effect}
    (h : w.begin b (some entry) e = .crashed w') :
    w'.entries = w.entries ∧ w'.calls = w.calls ++ triedCalls w.now e := by
  cases e with
  | call c =>
    simp only [begin] at h
    split at h
    · split at h
      · simp at h
      · cases h
        exact ⟨rfl, calls_record w (.called c)⟩
    · simp at h
  | sleepUntil time =>
    simp only [begin] at h
    split at h <;> simp at h
  | _ => simp [begin] at h

theorem later_exactly {b : Backend σ} {entry time : Nat} {e : Effect}
    {finish : Nat → σ → Option e.Answer × σ}
    (h : w.begin b (some entry) e = .later time finish w') :
    w'.entries = w.entries ∧ w'.calls = w.calls ++ triedCalls w.now e := by
  cases e with
  | call c =>
    simp only [begin] at h
    split at h
    · split at h <;> simp at h
    · cases h
      exact ⟨rfl, calls_record w (.called c)⟩
  | sleepUntil time =>
    simp only [begin] at h
    split at h
    · simp at h
    · cases h
      exact ⟨rfl, (List.append_nil _).symm⟩
  | _ => simp [begin] at h

end World

namespace Queue

theorem calls_close (q : Queue σ α) (i entry : Nat) (a? : Option α) (w : World σ) :
    (q.close i entry a? w).world.calls = w.calls := by
  have hrecord := World.calls_record w (closing i a?)
  cases a? <;> exact hrecord.trans (List.append_nil _)

/-- The notes of a run are those of its tasks. -/
structure Noted (ps : List (Program α)) (w₀ : World σ) (notes : List (Nat × Note))
    (q : Queue σ α) : Prop where
  fresh : ∀ i, q.slots.length ≤ i → own i notes = []
  follows : ∀ (i : Nat) (s : Slot σ α) (p : Program α), q.slots[i]? = some s →
    ps[i]? = some p → s.Follows p (own i notes)
  shows : ∀ (i : Nat) (s : Slot σ α), q.slots[i]? = some s →
    ∃ e, q.world.entries[w₀.entries.length + i]? = some e ∧ s.Shows (shown (own i notes)) e
  calls : q.world.calls = w₀.calls ++ notes.filterMap (·.2.call?)

namespace Noted

variable {m : Nat} {ps : List (Program α)} {w₀ : World σ} {notes : List (Nat × Note)}
  {q q' : Queue σ α}

theorem start (m : Nat) (ps : List (Program α)) (w₀ : World σ) (display : Display) :
    Noted ps w₀ [] (ofTasks m ps w₀ display) where
  fresh _ _ := rfl
  follows i s p hs := by simp [ofTasks] at hs
  shows i s hs := by simp [ofTasks] at hs
  calls := (List.append_nil _).symm

theorem aside (h : q.Noted ps w₀ notes) (hslots : q'.slots = q.slots)
    (hentries : q'.world.entries = q.world.entries)
    (hjournal : q'.world.journal = q.world.journal) : q'.Noted ps w₀ notes where
  fresh := by simpa only [hslots] using h.fresh
  follows := by simpa only [hslots] using h.follows
  shows := by simpa only [hslots, hentries] using h.shows
  calls := (World.calls_of_journal hjournal).trans h.calls

theorem takeOn (h : q.Noted ps w₀ notes) (hsound : q.Sound m ps w₀) {p : Program α}
    {others : List (Program α)} (htasks : q.tasks = p :: others) :
    Noted ps w₀ notes (q.takeOn p others) := by
  have hp : ps[q.slots.length]? = some p := by
    have hdrop : ps.drop q.slots.length = p :: others := by rw [← hsound.tasks, htasks]
    have hfirst : (ps.drop q.slots.length)[0]? = some p := by rw [hdrop, List.getElem?_cons_zero]
    rwa [List.getElem?_drop, Nat.add_zero] at hfirst
  refine ⟨fun i hi => ?_, fun i s p' hs hp' => ?_, fun i s hs => ?_, ?_⟩
  · simp only [Queue.takeOn, List.length_append, List.length_singleton] at hi
    exact h.fresh i (by omega)
  · rcases getElem?_concat hs with hs | ⟨rfl, rfl⟩
    · exact h.follows i s p' hs hp'
    · exact ⟨h.fresh _ (Nat.le_refl _), Option.some.inj (hp.symm.trans hp')⟩
  · rcases getElem?_concat hs with hs | ⟨rfl, rfl⟩
    · obtain ⟨e, he, hshows⟩ := h.shows i s hs
      have hlt := (List.getElem?_eq_some_iff.mp he).1
      exact ⟨e, (List.getElem?_append_left hlt).trans he, hshows⟩
    · refine ⟨{ message := "" }, ?_, ?_⟩
      · rw [← hsound.entries]
        exact List.getElem?_concat_length
      · rw [h.fresh _ (Nat.le_refl _)]
        rfl
  · exact (World.calls_record q.world (.handed q.slots.length q.world.entries.length)).trans
      ((List.append_nil _).trans h.calls)

/-- One task goes on and leaves the entries of the others alone. -/
theorem goOn (h : q.Noted ps w₀ notes) {i : Nat} {s s' : Slot σ α} {new : List Note}
    (change : Progress.Entry → Progress.Entry) (hs : q.slots[i]? = some s)
    (hslots : q'.slots = q.slots.set i s')
    (hentries : q'.world.entries = q.world.entries.modify (w₀.entries.length + i) change)
    (hcalls : q'.world.calls = q.world.calls ++ new.filterMap Note.call?)
    (hfollows : ∀ p, s.Follows p (own i notes) → s'.Follows p (own i notes ++ new))
    (hshows : ∀ e, s.Shows (shown (own i notes)) e →
      s'.Shows (shown (own i notes ++ new)) (change e)) :
    q'.Noted ps w₀ (notes ++ new.map (i, ·)) where
  fresh j hj := by
    have hlt := (List.getElem?_eq_some_iff.mp hs).1
    rw [hslots, List.length_set] at hj
    rw [own_append, h.fresh j hj, own_other (by omega), List.append_nil]
  follows j t p ht hp := by
    rw [hslots] at ht
    rw [own_append]
    rcases getElem?_set_cases ht with ⟨rfl, rfl⟩ | ⟨hj, ht⟩
    · rw [own_self]
      exact hfollows p (h.follows j s p hs hp)
    · rw [own_other hj, List.append_nil]
      exact h.follows j t p ht hp
  shows j t ht := by
    rw [hslots] at ht
    rw [own_append, hentries]
    rcases getElem?_set_cases ht with ⟨rfl, rfl⟩ | ⟨hj, ht⟩
    · obtain ⟨e, he, hold⟩ := h.shows j s hs
      rw [own_self]
      exact ⟨change e, by simp [he], hshows e hold⟩
    · obtain ⟨e, he, hold⟩ := h.shows j t ht
      rw [own_other hj, List.append_nil]
      exact ⟨e, by simpa [Ne.symm hj] using he, hold⟩
  calls := by
    rw [hcalls, h.calls, List.append_assoc, List.filterMap_append, List.filterMap_map]
    rfl

/-- One task ends, and does no more to its entry than that. -/
theorem closed (h : q.Noted ps w₀ notes) {i : Nat} {s : Slot σ α} {a? : Option α} {new : List Note}
    {w : World σ} (hs : q.slots[i]? = some s) (hactive : s.isActive = true)
    (hentries : w.entries = q.world.entries)
    (hcalls : w.calls = q.world.calls ++ new.filterMap Note.call?)
    (hshown : shown (own i notes ++ new) = shown (own i notes))
    (hfollows : ∀ p, s.Follows p (own i notes) →
      (Slot.ended a? : Slot σ α).Follows p (own i notes ++ new)) :
    (q.close i (w₀.entries.length + i) a? w).Noted ps w₀ (notes ++ new.map (i, ·)) := by
  refine h.goOn (fun e => e.apply w.now (.finish (if a?.isSome then .success else .failed))) hs rfl
    ?_ ?_ hfollows (fun e he => ?_)
  · simp only [close, World.changeEntry, World.record, hentries]
  · rw [calls_close]
    exact hcalls
  · have hmade : e = shown (own i notes) := by
      cases s with
      | ended => simp [Slot.isActive] at hactive
      | _ => exact he
    rw [hshown, ← hmade]
    exact ⟨w.now, rfl⟩

theorem act (h : q.Noted ps w₀ notes) (hsound : q.Sound m ps w₀) {b : Backend σ} {i : Nat}
    (hact : q.act b i = some q') : q'.Noted ps w₀ (notes ++ (q.tried b i).map (i, ·)) := by
  unfold Queue.act at hact
  split at hact
  · rename_i entry a hs
    cases hact
    obtain rfl := hsound.owns i _ hs entry rfl
    have htried : q.tried b i = [] := by simp [Queue.tried, hs]
    rw [htried]
    refine h.closed hs rfl rfl (List.append_nil _).symm (by rw [List.append_nil]) fun p hon => ?_
    simpa [Slot.Follows] using hon
  · rename_i entry hs
    cases hact
    obtain rfl := hsound.owns i _ hs entry rfl
    have htried : q.tried b i = [] := by simp [Queue.tried, hs]
    rw [htried]
    refine h.closed hs rfl rfl (List.append_nil _).symm (by rw [List.append_nil]) fun p hon => ?_
    exact .inl (by simpa [Slot.Follows] using hon)
  · rename_i entry e next hs
    obtain rfl := hsound.owns i _ hs entry rfl
    obtain ⟨shown₀, hshown, hshows⟩ := h.shows i _ hs
    split at hact
    · rename_i a w hbegin
      cases hact
      have htried : q.tried b i = [.tried q.world.now e, .heard q.world.now e a] := by
        simp [Queue.tried, hs, hbegin]
      obtain ⟨hentries, hcalls, hagrees⟩ := World.answered_exactly hbegin
      obtain rfl : shown₀ = _ := hshows
      rw [htried]
      refine h.goOn _ hs rfl hentries hcalls (fun p hon => ?_) (fun made hmade => ?_)
      · exact .next hon (hagrees _ hshown)
      · obtain rfl : made = _ := hmade
        change _ = shown (own i notes ++ ([.tried _ e] ++ [.heard _ e a]))
        rw [← List.append_assoc, shown_heard, shown_tried]
    · rename_i w hbegin
      cases hact
      have htried : q.tried b i = [.tried q.world.now e, .crashed q.world.now e] := by
        simp [Queue.tried, hs, hbegin]
      obtain ⟨hentries, hcalls⟩ := World.crashed_exactly hbegin
      have hwait := (World.touches_of_crashed hbegin).2
      rw [htried]
      have hshown : shown (own i notes ++ [.tried q.world.now e, .crashed q.world.now e]) =
          shown (own i notes) := by
        rw [← List.singleton_append, ← List.append_assoc, shown_crashed, shown_tried]
      refine h.closed hs rfl hentries hcalls hshown fun p hon => ?_
      refine .inr ⟨own i notes ++ [.tried q.world.now e], q.world.now, e, next, ?_, ?_⟩
      · exact (List.append_assoc _ [_] [_]).symm
      · exact ⟨own i notes, _, e, next, rfl, rfl, hwait, hon⟩
    · rename_i time finish w hbegin
      cases hact
      have htried : q.tried b i = [.tried q.world.now e] := by
        simp [Queue.tried, hs, hbegin]
      obtain ⟨hentries, hcalls⟩ := World.later_exactly hbegin
      have hwait := (World.touches_of_later hbegin).2
      rw [htried]
      refine h.goOn id hs rfl ?_ hcalls (fun p hon => ?_) (fun made hmade => ?_)
      · exact hentries.trans (List.modify_id _ _).symm
      · exact ⟨own i notes, _, e, next, rfl, rfl, hwait, hon⟩
      · obtain rfl : made = _ := hmade
        rw [shown_tried]
        rfl
  · simp at hact

theorem enter (h : q.Noted ps w₀ notes) (hsound : q.Sound m ps w₀) {i : Nat}
    (henter : q.enter i = some q') : q'.Noted ps w₀ (notes ++ (q.heard i).map (i, ·)) := by
  unfold Queue.enter at henter
  split at henter
  · rename_i wake turn entry p hs
    cases henter
    have hheard : q.heard i = [] := by simp [Queue.heard, hs]
    rw [hheard]
    refine h.goOn id hs rfl (List.modify_id _ _).symm
      (World.calls_record q.world (.began i)) (fun p hon => ?_) (fun made hmade => ?_)
    · obtain ⟨hnotes, rfl⟩ := hon
      rw [hnotes]
      exact .start
    · rw [List.append_nil]
      exact hmade
  · rename_i entry p hs
    cases henter
    have hheard : q.heard i = [] := by simp [Queue.heard, hs]
    rw [hheard]
    simpa using h
  · rename_i wake turn entry s hs
    obtain rfl := hsound.owns i _ hs entry rfl
    split at henter
    · rename_i a state hfinish
      cases henter
      have hheard : q.heard i = [.heard q.world.now s.effect a] := by
        simp [Queue.heard, hs, hfinish]
      have hstarted := hsound.started
      have hlt := (List.getElem?_eq_some_iff.mp hs).1
      obtain ⟨effect, finish, next⟩ := s
      have hwait : effect.mayWait = true := by
        obtain ⟨_, _, _, _, -, hp, hwait, -⟩ :=
          h.follows i _ _ hs (List.getElem?_eq_getElem (by omega))
        cases hp
        exact hwait
      rw [hheard]
      refine h.goOn id hs rfl (List.modify_id _ _).symm (List.append_nil _).symm
        (fun p hon => ?_) (fun made hmade => ?_)
      · obtain ⟨before, time, _, _, hnotes, hp, -, htrail⟩ := hon
        cases hp
        rw [hnotes, List.append_assoc]
        exact .next htrail (Effect.agrees_of_mayWait hwait _ a)
      · obtain rfl : made = _ := hmade
        rw [shown_heard, Effect.shown_of_mayWait hwait]
        rfl
    · rename_i state hfinish
      cases henter
      have hheard : q.heard i = [.crashed q.world.now s.effect] := by
        simp [Queue.heard, hs, hfinish]
      rw [hheard]
      refine h.closed hs rfl rfl (List.append_nil _).symm (shown_crashed ..) fun p hon => ?_
      exact .inr ⟨_, _, s.effect, s.next, rfl, hon⟩
  · simp at henter

theorem of_runs {b : Backend σ} {display : Display} {r : Running σ α}
    (h : Running.Runs b (.start m ps w₀ display) notes r) : r.queue.Noted ps w₀ notes := by
  induction h with
  | start => exact .start m ps w₀ display
  | @next notes r r' c h hc ih =>
    have hsound : r.queue.Sound m ps w₀ := Running.sound_of_reachable h.reachable
    rcases Running.cases_of_choose hc with ⟨i, rfl, henter⟩ | ⟨i, rfl, hact⟩ | ⟨hc', -, hmove⟩
    · exact ih.enter hsound henter
    · exact ih.act hsound hact
    · have hnone : r.notes b c = [] := by
        cases c with
        | enter i => exact absurd rfl (hc' i).1
        | act i => exact absurd rfl (hc' i).2
        | _ => rfl
      rw [hnone, List.append_nil]
      rcases hmove with ⟨hslots, hentries, hjournal⟩ | ⟨p, others, -, htasks, heq⟩
      · exact ih.aside hslots hentries hjournal
      · exact heq ▸ ih.takeOn hsound htasks

end Noted

end Queue

end Muster
