import Muster.Proofs.Progress.Open

/-! Logs whose writes fail. Main statement: after any renderings, failed or not, every entry added is in
exactly one list if and only if no rendering failed between the last lines of two entries that ended. -/

namespace Muster.Progress

namespace Log

variable {ω : Type} (w : Writer ω) (c : Config) (columns now : Nat) (entries : List Entry)

theorem torn_subset (log : Log) (out : ω) :
    log.torn w c columns now entries out ⊆ log.inProgress := by
  rcases renderTo_cases w c columns now entries log out with ⟨-, -, hwritten⟩ | ⟨htorn, -⟩
  · exact fun i hi => (List.mem_filter.mp (hwritten.subset hi)).1
  · rw [htorn]
    exact List.nil_subset _

end Log

/-- A log in use that may be written to any place. -/
structure Panel (ω : Type) where
  entries : List Entry := []
  log : Log := {}
  out : ω

namespace Panel

variable {ω : Type} (w : Writer ω) (c : Config)

/-- The panel after a step. What a rendering did stays if it fails. -/
def take (now : Nat) (p : Panel ω) : Board.Step → Panel ω
  | .create message => { p with entries := p.entries ++ [{ message }] }
  | .add ids => { p with log := p.log.add ids }
  | .change entry change =>
    { p with entries := p.entries.modify entry fun e => e.apply now change }
  | .render columns =>
    let (log, out, _) := p.log.renderTo w c columns now p.entries p.out
    { p with log, out }

def run : List (Nat × Board.Step) → Panel ω → Panel ω
  | [], p => p
  | (now, s) :: rest, p => run rest (p.take w c now s)

def tornBy (now : Nat) (p : Panel ω) : Board.Step → List Nat
  | .render columns => p.log.torn w c columns now p.entries p.out
  | _ => []

def torn : List (Nat × Board.Step) → Panel ω → List Nat
  | [], _ => []
  | (now, s) :: rest, p => p.tornBy w c now s ++ torn rest (p.take w c now s)

theorem lists_take_perm (now : Nat) (s : Board.Step) (p : Panel ω) :
    (p.take w c now s).log.lists.Perm
      (p.log.lists ++ Board.added [(now, s)] ++ p.tornBy w c now s) := by
  cases s with
  | create message => simp [take, tornBy, Board.added]
  | change entry change => simp [take, tornBy, Board.added]
  | add ids => simpa [take, tornBy, Board.added] using Log.lists_add_perm p.log ids
  | render columns =>
    simpa [take, tornBy, Board.added] using
      Log.lists_renderTo_perm w c columns now p.entries p.log p.out

theorem added_cons (now : Nat) (s : Board.Step) (steps : List (Nat × Board.Step)) :
    Board.added ((now, s) :: steps) = Board.added [(now, s)] ++ Board.added steps := by
  simp [Board.added]

theorem lists_run_perm (steps : List (Nat × Board.Step)) (p : Panel ω) :
    (p.run w c steps).log.lists.Perm
      (p.log.lists ++ Board.added steps ++ p.torn w c steps) := by
  induction steps generalizing p with
  | nil => simp [run, torn, Board.added]
  | cons s steps ih =>
    obtain ⟨now, s⟩ := s
    refine (ih _).trans ?_
    have hstep := ((lists_take_perm w c now s p).append_right (Board.added steps)).append_right
      (torn w c steps (p.take w c now s))
    refine hstep.trans ?_
    rw [added_cons now s steps, torn, List.perm_iff_count]
    intro i
    simp only [List.count_append]
    omega

theorem tornBy_subset (now : Nat) (s : Board.Step) (p : Panel ω) :
    p.tornBy w c now s ⊆ p.log.lists := by
  cases s with
  | render columns =>
    intro i hi
    have hmem := Log.torn_subset w c columns now p.entries p.log p.out hi
    exact List.mem_append_left _ (List.mem_append_right _ hmem)
  | _ => exact List.nil_subset _

theorem mem_of_mem_torn {steps : List (Nat × Board.Step)} {p : Panel ω} {i : Nat}
    (h : i ∈ p.torn w c steps) : i ∈ p.log.lists ++ Board.added steps := by
  induction steps generalizing p with
  | nil => exact absurd h List.not_mem_nil
  | cons s steps ih =>
    obtain ⟨now, s⟩ := s
    rw [added_cons now s steps, ← List.append_assoc]
    rcases List.mem_append.mp h with h | h
    · exact List.mem_append_left _ (List.mem_append_left _ (tornBy_subset w c now s p h))
    · rcases List.mem_append.mp (ih h) with h | h
      · refine List.mem_append_left _ ?_
        rcases List.mem_append.mp ((lists_take_perm w c now s p).subset h) with h | h
        · exact h
        · exact List.mem_append_left _ (tornBy_subset w c now s p h)
      · exact List.mem_append_right _ h

/-- A log, in any state, that is changed and rendered on while any writes and flushes fail. The entries in
its lists are those added, and those that were torn once more: the count of its lists is right if and only
if none is torn. A rendering tears entries only if it fails at last lines behind theirs. It leaves the other
lists as they are then, and moves all entries as it should otherwise, even if it fails later on. -/
theorem listed_once_iff_not_torn {steps : List (Nat × Board.Step)} {p : Panel ω}
    (hnew : (p.log.lists ++ Board.added steps).Nodup) :
    let ids := p.log.lists ++ Board.added steps
    let p' := p.run w c steps
    let log := p'.log
    let torn := p.torn w c steps
    (log.pending ++ log.inProgress ++ log.done).Perm (ids ++ torn) ∧ torn ⊆ ids ∧
    ((∀ i ∈ ids, (log.pending ++ log.inProgress ++ log.done).count i = 1) ↔ torn = []) ∧
    (log.pending.length + log.inProgress.length + log.done.length = ids.length ↔ torn = []) ∧
    ∀ columns now,
      let r := log.renderTo w c columns now p'.entries p'.out
      let last := log.torn w c columns now p'.entries p'.out
      (r.2.2 = false ∧ r.1 = { log with done := log.done ++ last } ∧
        last <+: log.ended p'.entries) ∨
      last = [] ∧ ∃ height lastWidth, r.1 = { log.moved p'.entries with height, lastWidth } := by
  intro ids p' log torn
  have hperm : log.lists.Perm (ids ++ torn) := lists_run_perm w c steps p
  have hsubset : torn ⊆ ids := fun i => mem_of_mem_torn w c
  refine ⟨hperm, hsubset, ?_, ?_, fun columns now =>
    (Log.renderTo_cases w c columns now p'.entries log p'.out).imp_right ?_⟩
  · constructor
    · intro honce
      by_contra htorn
      obtain ⟨i, hi⟩ := List.exists_mem_of_ne_nil torn htorn
      have hcount := hperm.count_eq i
      rw [List.count_append] at hcount
      have hin := List.count_pos_iff.mpr (hsubset hi)
      have htwice := List.count_pos_iff.mpr hi
      have hone := honce i (hsubset hi)
      change log.lists.count i = 1 at hone
      omega
    · intro htorn i hi
      rw [htorn, List.append_nil] at hperm
      exact (hperm.count_eq i).trans (List.count_eq_one_of_mem hnew hi)
  · have hlength := hperm.length_eq
    simp only [Log.lists, List.length_append] at hlength
    rw [← List.length_eq_zero_iff]
    omega
  · rintro ⟨hnone, ⟨hmoved, -⟩ | ⟨-, hmoved⟩⟩
    · exact ⟨hnone, _, _, hmoved⟩
    · exact ⟨hnone, _, _, hmoved⟩

/-- The first of two last lines does not fit. -/
theorem listed_once_iff_not_torn_first :
    let c : Config := { width := 20, palette := .plain }
    let ended : Stage := .ended 0 .success
    let p : Panel Sink := ⟨[⟨"a", "", "", ended⟩, ⟨"b", "", "", ended⟩], { inProgress := [0, 1] },
      { room? := some 10 }⟩
    let steps : List (Nat × Board.Step) := [(0, .render 80), (1, .add [2])]
    (p.log.lists ++ Board.added steps).Nodup ∧ p.torn Sink.writer c steps = [] ∧
    let log := (p.run Sink.writer c steps).log
    log.pending.length + log.inProgress.length + log.done.length = 3 := by
  intro c ended p steps
  have hnew : (p.log.lists ++ Board.added steps).Nodup := by decide
  have htorn : p.torn Sink.writer c steps = [] := by decide +kernel
  obtain ⟨-, -, -, hlength, -⟩ := listed_once_iff_not_torn Sink.writer c hnew
  exact ⟨hnew, htorn, hlength.mpr htorn⟩

/-- The second of two last lines does not fit, and the first is written again. -/
theorem listed_twice_after_failure :
    let c : Config := { width := 20, palette := .plain }
    let ended : Stage := .ended 0 .success
    let entries : List Entry := [⟨"a", "", "", ended⟩, ⟨"b", "", "", ended⟩]
    let (log, sink, written) :=
      Log.render c 80 0 entries { inProgress := [0, 1] } { room? := some 20 }
    let (log', sink', written') := log.render c 80 0 entries { sink with room? := none }
    written = false ∧ log = { inProgress := [0, 1], done := [0] } ∧
    written' = true ∧ log' = { done := [0, 0, 1] } ∧
    sink'.text = "a              0m0s\na              0m0s\nb              0m0s\n" := by
  decide +kernel

end Panel

end Muster.Progress
