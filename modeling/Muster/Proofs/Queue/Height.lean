import Muster.Proofs.Progress.Open
import Muster.Proofs.Queue.Account

/-! The entries of a queue in its log. Main statement: a line below those that stay belongs to a task
that is active, so that there are never more of them than tasks that may be taken at once. -/

namespace Muster

variable {σ α : Type}

namespace Queue

/-- The entries of the tasks that have been taken are those of the log. The ones of ended tasks have
ended, and the lines that the last rendering wrote below those that stay are few. -/
structure Listed (m : Nat) (w₀ : World σ) (q : Queue σ α) : Prop where
  registered : ∀ i < q.slots.length, w₀.entries.length + i ∈ q.display.log.lists
  nodup : q.display.log.opened.Nodup
  own : ∀ id ∈ q.display.log.opened, ∃ i < q.slots.length, id = w₀.entries.length + i
  ended : ∀ (i : Nat) (a? : Option α), q.slots[i]? = some (.ended a?) →
    (q.world.entries.getD (w₀.entries.length + i) default).isDone = true
  height : q.display.log.height ≤ max 1 m

namespace Listed

variable {m : Nat} {ps : List (Program α)} {w₀ : World σ} {q q' : Queue σ α}

theorem start {m : Nat} {ps : List (Program α)} {w₀ : World σ} {display : Display}
    (h : display.log = {}) : Listed m w₀ (ofTasks m ps w₀ display) where
  registered i hi := by simp [ofTasks] at hi
  nodup := by simp [ofTasks, h, Progress.Log.opened]
  own i hi := by simp [ofTasks, h, Progress.Log.opened] at hi
  ended i a? hs := by simp [ofTasks] at hs
  height := by simp [ofTasks, h]

def activeEntries (base : Nat) (slots : List (Slot σ α)) : List Nat :=
  (slots.zipIdx.filter fun p => p.1.isActive).map fun p => base + p.2

theorem length_activeEntries (base : Nat) (slots : List (Slot σ α)) :
    (activeEntries base slots).length = slots.countP Slot.isActive := by
  have hzip : slots.zipIdx.countP (Slot.isActive ∘ Prod.fst) = slots.countP Slot.isActive := by
    rw [← List.countP_map, List.zipIdx_map_fst]
  rw [activeEntries, List.length_map, ← List.countP_eq_length_filter]
  exact hzip

theorem length_le_active (h : q.Listed m w₀) {ids : List Nat} (hnodup : ids.Nodup)
    (hids : ∀ id ∈ ids, id ∈ q.display.log.opened ∧
      (q.world.entries.getD id default).isDone = false) : ids.length ≤ q.active := by
  have hsubset : ids ⊆ activeEntries w₀.entries.length q.slots := by
    intro id hid
    obtain ⟨hopen, hdone⟩ := hids id hid
    obtain ⟨i, hi, rfl⟩ := h.own id hopen
    have hs := List.getElem?_eq_getElem hi
    have hactive : q.slots[i].isActive = true := by
      cases hslot : q.slots[i] with
      | ended a? =>
        rw [hslot] at hs
        rw [h.ended i a? hs] at hdone
        exact absurd hdone (by decide)
      | _ => rfl
    refine List.mem_map.mpr ⟨(q.slots[i], i), List.mem_filter.mpr ⟨?_, hactive⟩, rfl⟩
    exact List.mem_zipIdx_iff_getElem?.mpr hs
  have := (List.subperm_of_subset hnodup hsubset).length_le
  rwa [length_activeEntries] at this

theorem takeOn (h : q.Listed m w₀) (hsound : q.Sound m ps w₀) {p : Program α}
    {others : List (Program α)} : Listed m w₀ (q.takeOn p others) := by
  have hentries := hsound.entries
  refine ⟨?_, ?_, ?_, ?_, h.height⟩
  · intro i hi
    simp only [Queue.takeOn, List.length_append, List.length_singleton] at hi
    simp only [Queue.takeOn, Progress.Log.add, Progress.Log.lists, List.mem_append,
      List.mem_singleton]
    by_cases hlt : i < q.slots.length
    · have := h.registered i hlt
      simp only [Progress.Log.lists, List.mem_append] at this
      rcases this with (hp | hi') | hd
      · exact .inl (.inl (.inl hp))
      · exact .inl (.inr hi')
      · exact .inr hd
    · exact .inl (.inl (.inr (by omega)))
  · have hfresh : q.world.entries.length ∉ q.display.log.opened := by
      intro hmem
      obtain ⟨i, hi, heq⟩ := h.own _ hmem
      omega
    have hperm : (q.takeOn p others).display.log.opened.Perm
        (q.world.entries.length :: q.display.log.opened) := by
      simp [Queue.takeOn, Progress.Log.add, Progress.Log.opened]
    exact hperm.nodup_iff.mpr (List.nodup_cons.mpr ⟨hfresh, h.nodup⟩)
  · intro id hid
    simp only [Queue.takeOn, Progress.Log.add, Progress.Log.opened, List.mem_append,
      List.mem_singleton] at hid
    simp only [Queue.takeOn, List.length_append, List.length_singleton]
    have hold : id ∈ q.display.log.opened → ∃ i < q.slots.length + 1,
        id = w₀.entries.length + i := by
      intro hmem
      obtain ⟨i, hi, heq⟩ := h.own id hmem
      exact ⟨i, by omega, heq⟩
    rcases hid with (hp | rfl) | hi
    · exact hold (List.mem_append_left _ hp)
    · exact ⟨q.slots.length, by omega, hentries⟩
    · exact hold (List.mem_append_right _ hi)
  · intro i a? hs
    rcases getElem?_concat hs with hs | ⟨_, hend⟩
    · exact (Progress.Entry.allPrecede_append _ _).isDone (h.ended i a? hs)
    · simp at hend

theorem render (h : q.Listed m w₀) (hsound : q.Sound m ps w₀) : q.render.Listed m w₀ := by
  have hsub := Progress.Log.opened_render_subperm q.display.config q.display.columns q.world.now
    q.world.entries q.display.log q.display.sink
  refine ⟨fun i hi => Progress.Log.mem_lists_render (h.registered i hi),
    Progress.Log.nodup_of_subperm h.nodup hsub, fun id hid => h.own id (hsub.subset hid), h.ended,
    ?_⟩
  rcases Progress.Log.height_render q.display.config q.display.columns q.world.now
    q.world.entries q.display.log q.display.sink with hheight | hheight
  · exact Nat.le_trans (Nat.le_of_eq hheight) h.height
  · have hshown := @Progress.Log.shown_moved q.display.config q.world.entries _ h.nodup
    have hactive := h.length_le_active hshown.1 hshown.2
    have hbound := hsound.bound
    simp only [Queue.taken] at hbound
    refine Nat.le_trans (Nat.le_of_eq hheight) ?_
    omega

theorem turn (h : q.Listed m w₀) (hsound : q.Sound m ps w₀) {i : Nat} (hturn : Turn i q q') :
    q'.Listed m w₀ := by
  cases hturn with
  | @goesOn s s' entry turn made w hs he he' _ htouches =>
    refine ⟨by simpa using h.registered, h.nodup, by simpa using h.own, ?_, h.height⟩
    intro j a? hj
    rcases getElem?_set_cases hj with ⟨rfl, rfl⟩ | ⟨_, hj⟩
    · simp [Slot.entry?] at he'
    · exact htouches.entries.isDone (h.ended j a? hj)
  | @ends s entry a? made w hs he _ htouches =>
    refine ⟨by simpa [close] using h.registered, h.nodup, by simpa [close] using h.own, ?_,
      h.height⟩
    intro j a?' hj
    rcases getElem?_set_cases hj with ⟨rfl, _⟩ | ⟨_, hj⟩
    · obtain rfl := hsound.owns j s hs entry he
      have hlt : w₀.entries.length + j < w.entries.length := by
        rw [htouches.length, hsound.entries]
        have := (List.getElem?_eq_some_iff.mp hs).1
        omega
      simp only [close, World.changeEntry, World.record]
      rw [List.getD_eq_getElem _ _ (by simpa using hlt), List.getElem_modify, if_pos rfl]
      exact Progress.Entry.isDone_apply_finish _ _ _
    · have hlater := htouches.entries.isDone (h.ended j a?' hj)
      exact (Progress.Entry.allPrecede_modify _ _ _ _).isDone hlater

theorem move (h : q.Listed m w₀) (hsound : q.Sound m ps w₀) (hmove : q.Move q') :
    q'.Listed m w₀ := by
  cases hmove with
  | same => exact h
  | takeOn => exact h.takeOn hsound
  | join => exact ⟨h.registered, h.nodup, h.own, h.ended, h.height⟩
  | render => exact h.render hsound
  | tick =>
    have := h.render hsound
    exact ⟨this.registered, this.nodup, this.own, this.ended, this.height⟩
  | turn hturn => exact h.turn hsound hturn
  | pass => exact ⟨h.registered, h.nodup, h.own, h.ended, h.height⟩

end Listed

end Queue

end Muster
