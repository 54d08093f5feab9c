import Muster.Proofs.Queue.Drained

/-! What the log of a queue has written by any time of a run. Main statement: the last lines of an entry
show it as it was at some time of the run, when it had ended. -/

namespace Muster

open Progress (Board Piece)

variable {σ α : Type}

namespace Queue

variable {q q₁ q' : Queue σ α} {pieces pieces' : List Piece}

/-- From one queue to another these pieces have been written, and all found room. -/
structure Prints (q : Queue σ α) (pieces : List Piece) (q' : Queue σ α) : Prop where
  text : q'.display.sink.text.toList =
    q.display.sink.text.toList ++ pieces.flatMap (·.text.toList)
  done : q'.display.log.done = q.display.log.done ++ pieces.filterMap Piece.final?
  room : q'.display.sink.room? = none
  config : q'.display.config = q.display.config
  columns : q'.display.columns = q.display.columns

/-- The entry has ended, and these are its last lines now. -/
def Pictures (q : Queue σ α) (id : Nat) (text : String) : Prop :=
  let e := q.world.entries.getD id default
  e.isDone = true ∧ text = e.finalLines q.display.config.palette
    (q.display.config.lineWidth q.display.columns) q.world.now

namespace Prints

theorem aside (hdisplay : q'.display = q.display) (hroom : q.display.sink.room? = none) :
    q.Prints [] q' := by
  refine ⟨?_, ?_, ?_, ?_, ?_⟩
  all_goals simp [hdisplay, hroom]

theorem trans (h : q.Prints pieces q₁) (h' : q₁.Prints pieces' q') :
    q.Prints (pieces ++ pieces') q' where
  text := by rw [h'.text, h.text, List.flatMap_append, List.append_assoc]
  done := by rw [h'.done, h.done, List.filterMap_append, List.append_assoc]
  room := h'.room
  config := h'.config.trans h.config
  columns := h'.columns.trans h.columns

end Prints

theorem prints_render (hroom : q.display.sink.room? = none) : ∃ pieces, q.Prints pieces q.render ∧
    ∀ id text, Piece.final id text ∈ pieces → q.Pictures id text := by
  obtain ⟨htake, hroom'⟩ := take_render_board hroom
  obtain ⟨-, hlog, htext⟩ := Board.take_render htake
  refine ⟨_, ⟨htext, ?_, hroom', rfl, rfl⟩, fun id text hmem => Board.final_pieces hmem⟩
  change q.render.board.log.done = _
  rw [hlog, Progress.Log.final?_pieces]
  split
  · rfl
  · rfl

theorem Move.prints (h : q.Move q') (hroom : q.display.sink.room? = none) :
    ∃ pieces, q.Prints pieces q' ∧ ∀ id text, Piece.final id text ∈ pieces → q.Pictures id text := by
  cases h with
  | same => exact ⟨[], .aside rfl hroom, by simp⟩
  | takeOn =>
    refine ⟨[], ⟨(List.append_nil _).symm, (List.append_nil _).symm, hroom, rfl, rfl⟩, by simp⟩
  | join => exact ⟨[], .aside rfl hroom, by simp⟩
  | render => exact prints_render hroom
  | tick =>
    obtain ⟨pieces, hprints, hpictures⟩ := prints_render hroom
    exact ⟨pieces, ⟨hprints.text, hprints.done, hprints.room, hprints.config, hprints.columns⟩,
      hpictures⟩
  | turn hturn => exact ⟨[], .aside hturn.aside.1 hroom, by simp⟩
  | pass => exact ⟨[], .aside rfl hroom, by simp⟩

/-- A task that has ended does not go on. -/
theorem Turn.slot_of_ended {i j : Nat} {a? : Option α} (h : Turn j q q')
    (hs : q.slots[i]? = some (.ended a?)) : j ≠ i ∧ q'.slots[i]? = some (.ended a?) := by
  have hne : ∀ (s : Slot σ α) entry, q.slots[j]? = some s → s.entry? = some entry → j ≠ i := by
    rintro s entry hj he rfl
    obtain rfl := Option.some.inj (hj.symm.trans hs)
    simp [Slot.entry?] at he
  cases h with
  | goesOn hj he =>
    have hji := hne _ _ hj he
    exact ⟨hji, (List.getElem?_set_ne hji).trans hs⟩
  | ends hj he =>
    have hji := hne _ _ hj he
    exact ⟨hji, (List.getElem?_set_ne hji).trans hs⟩

theorem heard_of_ended {i : Nat} {a? : Option α} (hs : q.slots[i]? = some (.ended a?)) :
    q.heard i = [] := by simp [heard, hs]

theorem tried_of_ended {b : Backend σ} {i : Nat} {a? : Option α}
    (hs : q.slots[i]? = some (.ended a?)) : q.tried b i = [] := by simp [tried, hs]

theorem Move.slot_of_ended {i : Nat} {a? : Option α} (h : q.Move q')
    (hs : q.slots[i]? = some (.ended a?)) : q'.slots[i]? = some (.ended a?) := by
  cases h with
  | takeOn =>
    have hlt := (List.getElem?_eq_some_iff.mp hs).1
    exact (List.getElem?_append_left hlt).trans hs
  | turn hturn => exact (hturn.slot_of_ended hs).2
  | _ => exact hs

end Queue

namespace Running

open Queue

variable {b : Backend σ} {r r' r₀ : Running σ α} {notes : List (Nat × Note)}

theorem own_notes_of_ended {c : Choice} {i : Nat} {a? : Option α}
    (hs : r.queue.slots[i]? = some (.ended a?)) : own i (r.notes b c) = [] := by
  have hmap : ∀ (j : Nat) (new : List Note), (j = i → new = []) → own i (new.map (j, ·)) = [] := by
    intro j new hnew
    by_cases hj : j = i
    · rw [hnew hj]
      rfl
    · exact own_other (Ne.symm hj) new
  cases c with
  | enter j => exact hmap j _ fun hj => heard_of_ended (hj ▸ hs)
  | act j => exact hmap j _ fun hj => tried_of_ended (hj ▸ hs)
  | _ => rfl

namespace Runs

/-- A task that has ended does nothing more. -/
theorem of_ended {later : List (Nat × Note)} (h : Runs b r later r') {i : Nat} {a? : Option α}
    (hs : r.queue.slots[i]? = some (.ended a?)) :
    r'.queue.slots[i]? = some (.ended a?) ∧ own i later = [] := by
  induction h with
  | start => exact ⟨hs, rfl⟩
  | next _ hc ih =>
    obtain ⟨hs', hlater⟩ := ih
    refine ⟨(move_of_choose hc).slot_of_ended hs', ?_⟩
    rw [own_append, hlater, own_notes_of_ended hs', List.append_nil]

/-- What has been written in a run, and that last lines show their entry as it was at some time. -/
theorem prints (h : Runs b r₀ notes r) (hroom : r₀.queue.display.sink.room? = none) :
    ∃ pieces, r₀.queue.Prints pieces r.queue ∧ ∀ id text, Piece.final id text ∈ pieces →
      ∃ (before later : List (Nat × Note)) (r₁ : Running σ α), Runs b r₀ before r₁ ∧
        Runs b r₁ later r ∧ notes = before ++ later ∧ r₁.queue.Pictures id text := by
  induction h with
  | start => exact ⟨[], .aside rfl hroom, by simp⟩
  | @next notes r r' c hruns hc ih =>
    obtain ⟨pieces, hprints, hpictures⟩ := ih
    obtain ⟨pieces', hprints', hpictures'⟩ := (move_of_choose hc).prints hprints.room
    refine ⟨pieces ++ pieces', hprints.trans hprints', fun id text hmem => ?_⟩
    rcases List.mem_append.mp hmem with hmem | hmem
    · obtain ⟨before, later, r₁, hbefore, hlater, rfl, hpicture⟩ := hpictures id text hmem
      exact ⟨before, later ++ r.notes b c, r₁, hbefore, hlater.next hc, List.append_assoc _ _ _,
        hpicture⟩
    · have hnow : Runs b r (r.notes b c) r' := Runs.next .start hc
      exact ⟨notes, r.notes b c, r, hruns, hnow, rfl, hpictures' id text hmem⟩

end Runs

variable {m : Nat} {ps : List (Program α)} {w₀ : World σ} {display : Display}

/-- An entry shows what some notes of its task tell, or how the end of its task left it. -/
def Shown (q : Queue σ α) (i : Nat) (notes made : List Note) (e : Progress.Entry) : Prop :=
  e = shown made ∨ made = notes ∧ ∃ a?, q.slots[i]? = some (.ended a?) ∧
    (Slot.ended a? : Slot σ α).Shows (shown made) e

/-- An entry that has ended at some time of a run shows what its task had done by then. -/
theorem shown_of_isDone {before later : List (Nat × Note)} {r₁ : Running σ α} {i : Nat}
    (hbefore : Runs b (start m ps w₀ display) before r₁) (hlater : Runs b r₁ later r)
    (hdone : (r₁.queue.world.entries.getD (w₀.entries.length + i) default).isDone = true) :
    ∃ made, made <+: own i (before ++ later) ∧ Shown r.queue i (own i (before ++ later)) made
      (r₁.queue.world.entries.getD (w₀.entries.length + i) default) := by
  have hsound : r₁.queue.Sound m ps w₀ := sound_of_reachable hbefore.reachable
  have hnoted : r₁.queue.Noted ps w₀ before := .of_runs hbefore
  have hi : i < r₁.queue.slots.length := by
    by_contra hi
    have hentries := hsound.entries
    rw [List.getD_eq_default _ _ (by omega)] at hdone
    exact absurd hdone (by decide)
  have hs := List.getElem?_eq_getElem hi
  obtain ⟨e, he, hshows⟩ := hnoted.shows i _ hs
  have hget : r₁.queue.world.entries.getD (w₀.entries.length + i) default = e := by
    rw [List.getD, he, Option.getD_some]
  rw [hget, own_append]
  refine ⟨own i before, List.prefix_append _ _, ?_⟩
  cases hslot : r₁.queue.slots[i] with
  | ended a? =>
    rw [hslot] at hs hshows
    obtain ⟨hended, hnone⟩ := hlater.of_ended hs
    exact .inr ⟨by rw [hnone, List.append_nil], a?, hended, hshows⟩
  | _ =>
    rw [hslot] at hshows
    exact .inl hshows

/-- The last lines that a queue has written for an entry show what its task had made of it by some time. -/
theorem printed_of_runs (h : Runs b (start m ps w₀ display) notes r)
    (hroom : display.sink.room? = none) :
    ∃ pieces, (ofTasks m ps w₀ display).Prints pieces r.queue ∧
      ∀ i text, Piece.final (w₀.entries.length + i) text ∈ pieces →
        ∃ (made : List Note) (e : Progress.Entry) (now : Nat), made <+: own i notes ∧
          Shown r.queue i (own i notes) made e ∧ e.isDone = true ∧
          text = e.finalLines display.config.palette
            (display.config.lineWidth display.columns) now := by
  obtain ⟨pieces, hprints, hpictures⟩ := h.prints hroom
  refine ⟨pieces, hprints, fun i text hmem => ?_⟩
  obtain ⟨before, later, r₁, hbefore, hlater, rfl, hdone, htext⟩ := hpictures _ text hmem
  obtain ⟨made, hmade, hshown⟩ := shown_of_isDone hbefore hlater hdone
  obtain ⟨_, hprints₁, -⟩ := hbefore.prints hroom
  have hconfig : r₁.queue.display.config = display.config := hprints₁.config
  have hcolumns : r₁.queue.display.columns = display.columns := hprints₁.columns
  rw [hconfig, hcolumns] at htext
  exact ⟨made, _, _, hmade, hshown, hdone, htext⟩

end Running

end Muster
