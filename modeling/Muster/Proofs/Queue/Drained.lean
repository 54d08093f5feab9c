import Muster.Proofs.Progress.Drained
import Muster.Proofs.Program.Course

/-! The log of a queue that has returned. Main statement: it has no open entries, it has written the last
lines of each entry once, and every entry keeps the first outcome that its task gave it, or the one that
the end of its task calls for. -/

namespace Muster

open Progress (Board Piece Change)

variable {σ α : Type}

/-- The outcomes that a task gave its entry, in order. -/
def finishes (notes : List Note) : List Progress.Outcome :=
  notes.filterMap fun n =>
    match n with
    | .heard _ (.change c) _ => c.outcome?
    | _ => none

theorem finishes_concat (notes : List Note) (n : Note) :
    finishes (notes ++ [n]) = finishes notes ++ finishes [n] := List.filterMap_append

/-- An entry that its task has ended shows the first outcome that the task gave it. -/
theorem outcome?_shown (notes : List Note) :
    (shown notes).stage.outcome? = (finishes notes).head? := by
  induction notes using List.reverseRecOn with
  | nil => rfl
  | append_singleton notes n ih =>
    rw [finishes_concat, List.head?_append, ← ih]
    cases n with
    | tried time e =>
      rw [shown_tried]
      exact Option.or_none.symm
    | crashed time e =>
      rw [shown_crashed]
      exact Option.or_none.symm
    | heard time e a =>
      rw [shown_heard]
      cases e with
      | change c =>
        have hchange : (finishes [.heard time (.change c) a]).head? = c.outcome? := by
          cases hc : c.outcome? <;> simp [finishes, hc]
        rw [hchange]
        exact Progress.Entry.outcome?_apply _ _ _
      | _ => exact Option.or_none.symm

namespace Queue

/-- What the log of a queue sees of it. -/
def board (q : Queue σ α) : Board := ⟨q.world.entries, q.display.log, q.display.sink⟩

/-- With room for all that is written, a queue renders its board. -/
theorem take_render_board {q : Queue σ α} (h : q.display.sink.room? = none) :
    q.board.take q.display.config q.world.now (.render q.display.columns) = some q.render.board ∧
      q.render.display.sink.room? = none := by
  obtain ⟨log', sink', hrender, hroom⟩ := Progress.Log.render_of_room q.display.config
    q.display.columns q.world.now q.world.entries q.display.log h
  have hdisplay : q.render.display = { q.display with log := log', sink := sink' } := by
    simp only [render, Display.render, hrender]
  simp only [Board.take, board, hrender, hdisplay]
  exact ⟨rfl, hroom⟩

section Changes

variable {b : Backend σ} {q q' : Queue σ α} {i : Nat}

/-- A task that goes on changes at most one entry, once. -/
theorem entries_act (h : q.act b i = some q') : q'.world.entries = q.world.entries ∨
    ∃ (now entry : Nat) (c : Change),
      q'.world.entries = q.world.entries.modify entry fun e => e.apply now c := by
  unfold act at h
  split at h
  · cases h
    exact .inr ⟨_, _, _, rfl⟩
  · cases h
    exact .inr ⟨_, _, _, rfl⟩
  · rename_i entry e next hs
    split at h
    · rename_i a w hbegin
      cases h
      have hentries := (World.answered_exactly hbegin).1
      cases e with
      | change c => exact .inr ⟨_, entry, c, hentries⟩
      | _ => exact .inl (hentries.trans (List.modify_id entry _))
    · rename_i w hbegin
      cases h
      obtain ⟨hentries, -⟩ := World.crashed_exactly hbegin
      refine .inr ⟨w.now, entry, .finish .failed, ?_⟩
      rw [← hentries]
      rfl
    · rename_i time finish w hbegin
      cases h
      exact .inl (World.later_exactly hbegin).1
  · simp at h

theorem entries_enter (h : q.enter i = some q') : q'.world.entries = q.world.entries ∨
    ∃ (now entry : Nat) (c : Change),
      q'.world.entries = q.world.entries.modify entry fun e => e.apply now c := by
  unfold enter at h
  split at h
  · cases h
    exact .inl rfl
  · cases h
    exact .inl rfl
  · split at h
    · cases h
      exact .inl rfl
    · cases h
      exact .inr ⟨_, _, _, rfl⟩
  · simp at h

theorem Turn.aside (h : Turn i q q') :
    q'.display = q.display ∧ q'.slots.length = q.slots.length := by
  cases h with
  | goesOn => exact ⟨rfl, List.length_set⟩
  | ends => exact ⟨rfl, List.length_set⟩

theorem Turn.taken_ne_zero (h : Turn i q q') : q.taken ≠ 0 := by
  have hactive : ∃ s ∈ q.slots, s.isActive = true := by
    cases h with
    | @goesOn s _ entry _ _ _ hs he =>
      exact ⟨s, List.mem_of_getElem? hs, Slot.isActive_iff.mpr ⟨entry, he⟩⟩
    | @ends s entry _ _ _ hs he =>
      exact ⟨s, List.mem_of_getElem? hs, Slot.isActive_iff.mpr ⟨entry, he⟩⟩
  have : 0 < q.active := List.countP_pos_iff.mpr hactive
  simp only [Queue.taken]
  omega

end Changes

/-- The board of a queue comes from an empty log, and all that was written found room. -/
structure Drawn (display : Display) (w₀ : World σ) (q : Queue σ α) : Prop where
  config : q.display.config = display.config
  room : q.display.sink.room? = none
  arises : Board.Arises display.config ⟨w₀.entries, {}, display.sink⟩ q.board
    ((List.range q.slots.length).map (w₀.entries.length + ·))

namespace Drawn

variable {display : Display} {w₀ : World σ} {m : Nat} {ps : List (Program α)} {q q' : Queue σ α}

theorem start (hlog : display.log = {}) (hroom : display.sink.room? = none) :
    Drawn display w₀ (ofTasks m ps w₀ display) := by
  refine ⟨rfl, hroom, ?_⟩
  have hboard : (ofTasks m ps w₀ display).board = ⟨w₀.entries, {}, display.sink⟩ := by
    simp only [ofTasks, board, hlog]
  rw [hboard]
  exact .refl _ _

theorem aside (h : q.Drawn display w₀) (hdisplay : q'.display = q.display)
    (hslots : q'.slots.length = q.slots.length) (hentries : q'.world.entries = q.world.entries) :
    q'.Drawn display w₀ := by
  have hboard : q'.board = q.board := by simp only [board, hdisplay, hentries]
  exact ⟨hdisplay ▸ h.config, hdisplay ▸ h.room, by rw [hboard, hslots]; exact h.arises⟩

theorem change (h : q.Drawn display w₀) {now entry : Nat} {c : Change}
    (hdisplay : q'.display = q.display) (hslots : q'.slots.length = q.slots.length)
    (hentries : q'.world.entries = q.world.entries.modify entry fun e => e.apply now c) :
    q'.Drawn display w₀ := by
  have htake : q.board.take display.config now (.change entry c) = some q'.board := by
    simp only [Board.take, board, hdisplay, hentries]
  have hnext := h.arises.next (s := .change entry c) trivial htake
  rw [hslots.symm] at hnext
  exact ⟨hdisplay ▸ h.config, hdisplay ▸ h.room, by simpa [Board.added] using hnext⟩

theorem turn (h : q.Drawn display w₀) {i : Nat} (hturn : Turn i q q')
    (hentries : q'.world.entries = q.world.entries ∨ ∃ (now entry : Nat) (c : Change),
      q'.world.entries = q.world.entries.modify entry fun e => e.apply now c) :
    q'.Drawn display w₀ := by
  obtain ⟨hdisplay, hslots⟩ := hturn.aside
  rcases hentries with hsame | ⟨now, entry, c, hchanged⟩
  · exact h.aside hdisplay hslots hsame
  · exact h.change hdisplay hslots hchanged

theorem takeOn (h : q.Drawn display w₀) (hsound : q.Sound m ps w₀) (p : Program α)
    (others : List (Program α)) : Drawn display w₀ (q.takeOn p others) := by
  refine ⟨h.config, h.room, ?_⟩
  have hentries := hsound.entries
  have hcreate := h.arises.next (show Board.Fresh q.world.now (.create "") q.board from trivial) rfl
  -- the number of the new entry is that of no entry so far
  have hfresh : q.world.entries.length ∉ q.board.log.lists := by
    intro hmem
    obtain ⟨i, hi, heq⟩ := List.mem_map.mp ((h.arises.perm rfl).1.mem_iff.mp hmem)
    have := List.mem_range.mp hi
    omega
  have hnew : Board.Fresh q.world.now (.add [q.world.entries.length])
      { q.board with entries := q.world.entries ++ [{ message := "" }] } := by
    refine ⟨List.nodup_singleton _, fun i hi => ?_⟩
    obtain rfl := List.mem_singleton.mp hi
    refine ⟨?_, hfresh⟩
    rw [List.length_append, List.length_singleton]
    omega
  have hadd : Board.Arises _ _ (q.takeOn p others).board _ := hcreate.next hnew rfl
  have hids : (List.range (q.takeOn p others).slots.length).map (w₀.entries.length + ·) =
      (List.range q.slots.length).map (w₀.entries.length + ·) ++ [q.world.entries.length] := by
    simp [Queue.takeOn, List.range_succ, hentries]
  rw [hids]
  simpa [Board.added] using hadd

theorem render (h : q.Drawn display w₀) : q.render.Drawn display w₀ := by
  obtain ⟨htake, hroom⟩ := take_render_board h.room
  rw [h.config] at htake
  have hnext := h.arises.next (s := .render q.display.columns) trivial htake
  exact ⟨h.config, hroom, by simpa [Board.added, Queue.render] using hnext⟩

theorem tick (h : q.Drawn display w₀) : q.tick.Drawn display w₀ :=
  h.render.aside rfl rfl rfl

theorem renderOpen (h : q.Drawn display w₀) : q.renderOpen.Drawn display w₀ := by
  unfold Queue.renderOpen
  split
  · exact h.render
  · exact h

/-- Once all open entries have ended, a rendering leaves none that waits and no line below. -/
theorem log_render (h : q.Drawn display w₀)
    (hended : ∀ id ∈ q.display.log.opened, (q.world.entries.getD id default).isDone = true) :
    q.render.display.log.pending = [] ∧
      q.render.display.log.inProgress = q.display.log.pending ∧
      q.render.display.log.height = 0 := by
  obtain ⟨htake, -⟩ := take_render_board h.room
  obtain ⟨hpending, hinProgress, hheight⟩ := Progress.Board.take_render_of_ended htake hended
  refine ⟨hpending, hinProgress, hheight.trans ?_⟩
  by_cases hc : q.display.config.appendOnly = true
  · rw [if_pos hc]
    exact h.arises.height (h.config ▸ hc)
  · exact if_neg hc

end Drawn

/-- Tasks that have all been joined have ended their entries. -/
theorem ended_of_joined {m : Nat} {ps : List (Program α)} {w₀ : World σ} {q : Queue σ α}
    (hsound : q.Sound m ps w₀) (hlisted : q.Listed m w₀) (hroom : q.hasRoom = false)
    (htaken : q.taken = 0) :
    ∀ id ∈ q.display.log.opened, (q.world.entries.getD id default).isDone = true := by
  intro id hid
  obtain ⟨i, hi, rfl⟩ := hlisted.own id hid
  have hinactive := (Running.ended_of_taken hsound htaken hroom).2.1 _ (List.getElem_mem hi)
  cases hslot : q.slots[i] with
  | ended a? => exact hlisted.ended i a? (by rw [List.getElem?_eq_getElem hi, hslot])
  | _ => simp [hslot, Slot.isActive] at hinactive

end Queue

namespace Running

open Queue

variable {b : Backend σ} {m : Nat} {ps : List (Program α)} {w₀ : World σ} {display : Display}
  {r r' : Running σ α}

theorem drawn_choose {c : Choice} (h : r.queue.Drawn display w₀) (hsound : r.queue.Sound m ps w₀)
    (hc : r.choose b c = some r') : r'.queue.Drawn display w₀ := by
  cases c with
  | proceed =>
    simp only [choose, proceed] at hc
    split at hc
    · split at hc
      · obtain ⟨q', hspawn, rfl⟩ := Option.map_eq_some_iff.mp hc
        unfold Queue.spawn at hspawn
        split at hspawn
        · simp at hspawn
        · cases hspawn
          exact h.takeOn hsound _ _
      · cases hc
        exact h
    · cases hc
      exact h.render
    · cases hc
      exact h.renderOpen
    · simp at hc
    · simp at hc
  | join k =>
    simp only [choose] at hc
    split at hc
    · obtain ⟨q', hjoin, rfl⟩ := Option.map_eq_some_iff.mp hc
      unfold Queue.join at hjoin
      split at hjoin
      · simp at hjoin
      · cases hjoin
        exact h.aside rfl rfl rfl
    · simp at hc
  | tick =>
    simp only [choose] at hc
    split at hc
    · cases hc
      exact h.tick
    · simp at hc
  | enter i =>
    simp only [choose] at hc
    split at hc
    · obtain ⟨q', henter, rfl⟩ := Option.map_eq_some_iff.mp hc
      rcases turn_enter henter with rfl | hturn
      · exact h
      · exact h.turn hturn (entries_enter henter)
    · simp at hc
  | act i =>
    obtain ⟨q', hact, rfl⟩ := Option.map_eq_some_iff.mp hc
    exact h.turn (turn_act hact) (entries_act hact)
  | pass time =>
    cases hc
    exact h.aside rfl rfl rfl

theorem drawn_of_reachable (hlog : display.log = {}) (hroom : display.sink.room? = none)
    (h : Reachable b (start m ps w₀ display) r) : r.queue.Drawn display w₀ := by
  induction h with
  | refl => exact .start hlog hroom
  | tail h hstep ih =>
    obtain ⟨c, hc⟩ := hstep
    exact drawn_choose ih (sound_of_reachable h) hc

/-- What is left open in the log when all tasks have been joined: nothing waits after the rendering
that follows, and the next one leaves nothing at all. -/
def Drained (r : Running σ α) : Prop :=
  let log := r.queue.display.log
  match r.position with
  | .leaving => log.pending = [] ∧ log.height = 0
  | .returned => log.pending = [] ∧ log.inProgress = [] ∧ log.height = 0
  | _ => True

theorem drained_of_turn {position : Position} {q q' : Queue σ α} {i : Nat}
    (hplaced : Placed ⟨position, q⟩) (hturn : Turn i q q') : Drained ⟨position, q'⟩ := by
  have htaken := hturn.taken_ne_zero
  cases position with
  | leaving => exact absurd hplaced.2 htaken
  | returned => exact absurd hplaced.2 htaken
  | _ => trivial

theorem drained_choose {c : Choice} (h : r.Drained) (hplaced : r.Placed)
    (hsound : r.queue.Sound m ps w₀) (hlisted : r.queue.Listed m w₀)
    (hdrawn : r.queue.Drawn display w₀) (hc : r.choose b c = some r') : r'.Drained := by
  obtain ⟨position, q⟩ := r
  cases c with
  | proceed =>
    cases position with
    | filling =>
      simp only [choose, proceed] at hc
      split at hc
      · obtain ⟨q', -, rfl⟩ := Option.map_eq_some_iff.mp hc
        trivial
      · cases hc
        by_cases htaken : q.taken = 0
        · rw [if_pos htaken]
          trivial
        · rw [if_neg htaken]
          trivial
    | waiting => simp [choose, proceed] at hc
    | closing =>
      cases hc
      have hended := ended_of_joined hsound hlisted hplaced.1 hplaced.2
      obtain ⟨hpending, -, hheight⟩ := hdrawn.log_render hended
      exact ⟨hpending, hheight⟩
    | leaving =>
      cases hc
      obtain ⟨hpending, hheight⟩ := h
      by_cases hopen : q.hasOpenEntries = true
      · have hended := ended_of_joined hsound hlisted hplaced.1 hplaced.2
        obtain ⟨hpending', hinProgress', hheight'⟩ := hdrawn.log_render hended
        simp only [Drained, renderOpen, if_pos hopen]
        exact ⟨hpending', hinProgress'.trans hpending, hheight'⟩
      · have hnone : ¬ 0 < q.display.log.pending.length + q.display.log.inProgress.length := by
          simpa only [hasOpenEntries, decide_eq_true_eq] using hopen
        have hinProgress : q.display.log.inProgress = [] := List.length_eq_zero_iff.mp (by omega)
        simp only [Drained, renderOpen, if_neg hopen]
        exact ⟨hpending, hinProgress, hheight⟩
    | returned => simp [choose, proceed] at hc
  | join k =>
    simp only [choose] at hc
    split at hc
    · obtain ⟨q', -, rfl⟩ := Option.map_eq_some_iff.mp hc
      trivial
    · simp at hc
  | tick =>
    simp only [choose] at hc
    split at hc
    · cases hc
      trivial
    · simp at hc
  | enter i =>
    simp only [choose] at hc
    split at hc
    · obtain ⟨q', henter, rfl⟩ := Option.map_eq_some_iff.mp hc
      rcases turn_enter henter with rfl | hturn
      · exact h
      · exact drained_of_turn hplaced hturn
    · simp at hc
  | act i =>
    obtain ⟨q', hact, rfl⟩ := Option.map_eq_some_iff.mp hc
    exact drained_of_turn hplaced (turn_act hact)
  | pass time =>
    cases hc
    exact h

theorem drained_of_reachable (hlog : display.log = {}) (hroom : display.sink.room? = none)
    (h : Reachable b (start m ps w₀ display) r) : r.Drained := by
  induction h with
  | refl => trivial
  | tail h hstep ih =>
    obtain ⟨c, hc⟩ := hstep
    exact drained_choose ih (placed_of_reachable h) (sound_of_reachable h)
      (listed_of_reachable hlog h) (drawn_of_reachable hlog hroom h) hc

/-- A queue that has returned has moved all its entries to those that are done. -/
theorem done_of_returned (hlog : display.log = {}) (hroom : display.sink.room? = none)
    {q : Queue σ α} (h : Reachable b (start m ps w₀ display) ⟨.returned, q⟩) :
    let ids := (List.range ps.length).map (w₀.entries.length + ·)
    q.display.log.done.Perm ids ∧ ids.Nodup := by
  intro ids
  have hsound : q.Sound m ps w₀ := sound_of_reachable h
  have hplaced := placed_of_reachable h
  have hdrawn : q.Drawn display w₀ := drawn_of_reachable hlog hroom h
  obtain ⟨hpending, hinProgress, -⟩ := drained_of_reachable hlog hroom h
  obtain ⟨hlength, -⟩ := ended_of_taken hsound hplaced.2 hplaced.1
  have harises := hdrawn.arises
  rw [hlength] at harises
  obtain ⟨hperm, hnodup⟩ := harises.perm rfl
  have hlists : q.board.log.lists = q.display.log.done := by
    change q.display.log.pending ++ q.display.log.inProgress ++ q.display.log.done = _
    rw [hpending, hinProgress, List.nil_append, List.nil_append]
  exact ⟨hlists ▸ hperm, hnodup⟩

end Running

end Muster
