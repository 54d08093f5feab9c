import Mathlib.Data.List.Induction
import Muster.Proofs.Progress.Entry
import Muster.Proofs.Progress.Rendering

/-! Logs in use. Entries are made, added to a log and changed, and the log is rendered, in any order and
at any times. -/

namespace Muster.Progress

structure Board where
  entries : List Entry := []
  log : Log := {}
  sink : Sink := {}
  deriving DecidableEq, Repr

namespace Board

inductive Step where
  | create (message : String)
  | add (ids : List Nat)
  | change (entry : Nat) (c : Change)
  | render (columns : Nat)
  deriving DecidableEq, Repr

/-- The board after a step. There is none if not everything could be written. -/
def take (c : Config) (now : Nat) (b : Board) : Step → Option Board
  | .create message => some { b with entries := b.entries ++ [{ message }] }
  | .add ids => some { b with log := b.log.add ids }
  | .change entry change =>
    some { b with entries := b.entries.modify entry fun e => e.apply now change }
  | .render columns =>
    match b.log.render c columns now b.entries b.sink with
    | (log, sink, true) => some { b with log, sink }
    | (_, _, false) => none

def run (c : Config) : List (Nat × Step) → Board → Option Board
  | [], b => some b
  | (now, s) :: rest, b => (b.take c now s).bind (run c rest)

def pieces (c : Config) (now : Nat) (b : Board) : Step → List Piece
  | .render columns => b.log.pieces c columns now b.entries
  | _ => []

/-- What several steps write, up to the first that fails. -/
def record (c : Config) : List (Nat × Step) → Board → List Piece
  | [], _ => []
  | (now, s) :: rest, b =>
    b.pieces c now s ++ match b.take c now s with
      | some b' => record c rest b'
      | none => []

/-- Every step of a run is taken from a board with the given property. -/
def Along (c : Config) (P : Nat → Step → Board → Prop) : List (Nat × Step) → Board → Prop
  | [], _ => True
  | (now, s) :: rest, b => P now s b ∧ ∀ b', b.take c now s = some b' → Along c P rest b'

instance decidableAlong (c : Config) (P : Nat → Step → Board → Prop)
    [∀ now s b, Decidable (P now s b)] : ∀ steps b, Decidable (Along c P steps b)
  | [], _ => .isTrue trivial
  | (now, s) :: rest, b =>
    match h : b.take c now s with
    | none => decidable_of_iff (P now s b) (by simp [Along, h])
    | some b' =>
      have := decidableAlong c P rest b'
      decidable_of_iff (P now s b ∧ Along c P rest b') (by simp [Along, h])

theorem run_append (c : Config) (xs ys : List (Nat × Step)) (b : Board) :
    run c (xs ++ ys) b = (run c xs b).bind (run c ys) := by
  induction xs generalizing b with
  | nil => rfl
  | cons x xs ih =>
    cases h : b.take c x.1 x.2 with
    | none => simp [run, h]
    | some b' => simpa [run, h] using ih b'

theorem run_concat (c : Config) (xs : List (Nat × Step)) (now : Nat) (s : Step) (b : Board) :
    run c (xs ++ [(now, s)]) b = (run c xs b).bind fun b' => b'.take c now s := by
  rw [run_append]
  congr 1
  funext b'
  cases h : b'.take c now s <;> simp [run, h]

theorem along_append {c : Config} {P : Nat → Step → Board → Prop} {xs ys : List (Nat × Step)}
    {b b' : Board} (h : run c xs b = some b') (ha : Along c P (xs ++ ys) b) : Along c P ys b' := by
  induction xs generalizing b with
  | nil =>
    cases h
    exact ha
  | cons x xs ih =>
    cases hx : b.take c x.1 x.2 with
    | none => simp [run, hx] at h
    | some b₁ => exact ih (by simpa [run, hx] using h) (ha.2 b₁ hx)

theorem along_left {c : Config} {P : Nat → Step → Board → Prop} {xs ys : List (Nat × Step)}
    {b : Board} (ha : Along c P (xs ++ ys) b) : Along c P xs b := by
  induction xs generalizing b with
  | nil => trivial
  | cons x xs ih => exact ⟨ha.1, fun b' hb' => ih (ha.2 b' hb')⟩

theorem run_induction {c : Config} {P : Nat → Step → Board → Prop}
    (I : List (Nat × Step) → Board → Prop) {start : Board} (hstart : I [] start)
    (hstep : ∀ done now s b b', I done b → P now s b → b.take c now s = some b' →
      I (done ++ [(now, s)]) b')
    {steps : List (Nat × Step)} {b : Board} (h : run c steps start = some b)
    (ha : Along c P steps start) : I steps b := by
  induction steps using List.reverseRecOn generalizing b with
  | nil =>
    cases h
    exact hstart
  | append_singleton steps s ih =>
    obtain ⟨now, s⟩ := s
    rw [run_concat] at h
    obtain ⟨b₁, h₁, h⟩ := Option.bind_eq_some_iff.mp h
    exact hstep _ _ _ _ _ (ih h₁ (along_left ha)) (along_append h₁ ha).1 h

theorem take_render {c : Config} {now columns : Nat} {b b' : Board}
    (h : b.take c now (.render columns) = some b') :
    b'.entries = b.entries ∧
    b'.log = (if c.appendOnly then b.log.moved b.entries else
      { b.log.moved b.entries with
        height := ((b.log.moved b.entries).shown c b.entries).length
        lastWidth := c.lineWidth columns }) ∧
    b'.sink.text.toList =
      b.sink.text.toList ++ (b.log.pieces c columns now b.entries).flatMap (·.text.toList) := by
  simp only [take] at h
  split at h
  · rename_i log sink hr
    cases h
    exact ⟨rfl, Log.render_eq hr⟩
  · simp at h

theorem take_of_room (c : Config) (now : Nat) (s : Step) {b : Board} (h : b.sink.room? = none) :
    ∃ b', b.take c now s = some b' ∧ b'.sink.room? = none := by
  cases s with
  | create message => exact ⟨_, rfl, h⟩
  | add ids => exact ⟨_, rfl, h⟩
  | change entry change => exact ⟨_, rfl, h⟩
  | render columns =>
    obtain ⟨log', sink', hrender, hroom⟩ := Log.render_of_room c columns now b.entries b.log h
    exact ⟨{ b with log := log', sink := sink' }, by simp only [take, hrender], hroom⟩

theorem run_of_room (c : Config) (steps : List (Nat × Step)) {b : Board}
    (h : b.sink.room? = none) : ∃ b', run c steps b = some b' ∧ b'.sink.room? = none := by
  induction steps generalizing b with
  | nil => exact ⟨b, rfl, h⟩
  | cons s steps ih =>
    obtain ⟨b₁, h₁, hroom₁⟩ := take_of_room c s.1 s.2 h
    obtain ⟨b', h', hroom⟩ := ih hroom₁
    exact ⟨b', by rw [run, h₁, Option.bind_some, h'], hroom⟩

theorem entries_take {c : Config} {now : Nat} {s : Step} {b b' : Board}
    (h : b.take c now s = some b') : Entry.AllPrecede b.entries b'.entries := by
  cases s with
  | create message =>
    cases h
    exact Entry.allPrecede_append _ _
  | add ids =>
    cases h
    exact .refl _
  | change entry change =>
    cases h
    exact Entry.allPrecede_modify _ _ _ _
  | render columns =>
    rw [(take_render h).1]
    exact .refl _

end Board

end Muster.Progress
