import Muster.Proofs.Queue.Notes

/-! The effects that a program may have, and how many of its calls may be of some sort. Both bound what a
task with this program does. -/

namespace Muster

variable {σ α β : Type}

def Note.effect : Note → Effect
  | .tried _ e => e
  | .heard _ e _ => e
  | .crashed _ e => e

namespace Program

/-- Every effect that the program may have is one of those allowed. -/
def Uses (allowed : Effect → Prop) : Program α → Prop
  | .done _ => True
  | .crash => True
  | .act e next => allowed e ∧ ∀ a, (next a).Uses allowed

namespace Uses

variable {allowed allowed' : Effect → Prop} {p p₀ : Program α} {notes : List Note}

theorem bind {f : α → Program β} (hp : p.Uses allowed) (hf : ∀ a, (f a).Uses allowed) :
    (p.bind f).Uses allowed := by
  induction p with
  | done a => exact hf a
  | crash => trivial
  | act e next ih => exact ⟨hp.1, fun a => ih a (hp.2 a)⟩

theorem mono (h : p.Uses allowed) (himp : ∀ e, allowed e → allowed' e) : p.Uses allowed' := by
  induction p with
  | done a => trivial
  | crash => trivial
  | act e next ih => exact ⟨himp e h.1, fun a => ih a (h.2 a)⟩

theorem trail (h : p₀.Uses allowed) (htrail : p₀.Trail notes p) :
    p.Uses allowed ∧ ∀ n ∈ notes, allowed n.effect := by
  induction htrail with
  | start => exact ⟨h, by simp⟩
  | next _ _ ih =>
    refine ⟨ih.1.2 _, fun n hn => ?_⟩
    rcases List.mem_append.mp hn with hn | hn
    · exact ih.2 n hn
    · simp only [List.mem_cons, List.not_mem_nil, or_false] at hn
      rcases hn with rfl | rfl
      · exact ih.1.1
      · exact ih.1.1

theorem awaits (h : p₀.Uses allowed) (hawaits : p₀.Awaits notes p) :
    ∀ n ∈ notes, allowed n.effect := by
  obtain ⟨before, time, e, next, rfl, rfl, -, htrail⟩ := hawaits
  obtain ⟨hrest, hbefore⟩ := h.trail htrail
  intro n hn
  rcases List.mem_append.mp hn with hn | hn
  · exact hbefore n hn
  · obtain rfl := List.mem_singleton.mp hn
    exact hrest.1

theorem crashesIn (h : p₀.Uses allowed) (hcrash : p₀.CrashesIn notes) :
    ∀ n ∈ notes, allowed n.effect := by
  obtain ⟨_, time, e, next, rfl, hawaits⟩ := hcrash
  have hbefore := h.awaits hawaits
  obtain ⟨before, time', e', next', rfl, heq, -, -⟩ := hawaits
  cases heq
  intro n hn
  rcases List.mem_append.mp hn with hn | hn
  · exact hbefore n hn
  · obtain rfl := List.mem_singleton.mp hn
    exact hbefore (.tried time' e) (List.mem_append_right _ List.mem_cons_self)

/-- A task does only what its program may do. -/
theorem follows (h : p₀.Uses allowed) {s : Slot σ α} (hs : s.Follows p₀ notes) :
    ∀ n ∈ notes, allowed n.effect := by
  rcases hs.cases with ⟨p, htrail⟩ | ⟨p, hawaits⟩ | hcrash
  · exact (h.trail htrail).2
  · exact h.awaits hawaits
  · exact h.crashesIn hcrash

end Uses

def weight (counts : Call → Bool) : Effect → Nat
  | .call c => if counts c then 1 else 0
  | _ => 0

/-- No path through the program makes more than so many of the calls that count. -/
def AtMost (counts : Call → Bool) : Program α → Nat → Prop
  | .done _, _ => True
  | .crash, _ => True
  | .act e next, n => weight counts e ≤ n ∧ ∀ a, (next a).AtMost counts (n - weight counts e)

def counted (counts : Call → Bool) (notes : List Note) : Nat :=
  (notes.filterMap Note.call?).countP fun c => counts c.2

@[simp] theorem counted_append (counts : Call → Bool) (notes notes' : List Note) :
    counted counts (notes ++ notes') = counted counts notes + counted counts notes' := by
  simp [counted, List.filterMap_append]

theorem counted_tried (counts : Call → Bool) (time : Nat) (e : Effect) :
    counted counts [.tried time e] = weight counts e := by
  cases e with
  | call c => by_cases h : counts c = true <;> simp [counted, Note.call?, weight, h]
  | _ => rfl

namespace AtMost

variable {counts : Call → Bool} {p p₀ : Program α} {n m : Nat} {notes : List Note}

theorem mono (h : p.AtMost counts n) (hle : n ≤ m) : p.AtMost counts m := by
  induction p generalizing n m with
  | done a => trivial
  | crash => trivial
  | act e next ih =>
    have hweight := h.1
    exact ⟨by omega, fun a => ih a (h.2 a) (by omega)⟩

theorem bind {f : α → Program β} (hp : p.AtMost counts n) (hf : ∀ a, (f a).AtMost counts m) :
    (p.bind f).AtMost counts (n + m) := by
  induction p generalizing n with
  | done a => exact (hf a).mono (by omega)
  | crash => trivial
  | act e next ih =>
    have hweight := hp.1
    refine ⟨by omega, fun a => ?_⟩
    have hrest := ih a (hp.2 a)
    rwa [show n + m - weight counts e = n - weight counts e + m by omega]

theorem of_uses {allowed : Effect → Prop} (h : p.Uses allowed)
    (hnone : ∀ e, allowed e → weight counts e = 0) : p.AtMost counts 0 := by
  induction p with
  | done a => trivial
  | crash => trivial
  | act e next ih =>
    have hweight := hnone e h.1
    refine ⟨by omega, fun a => ?_⟩
    rw [hweight]
    exact ih a (h.2 a)

theorem trail (h : p₀.AtMost counts n) (htrail : p₀.Trail notes p) :
    counted counts notes ≤ n ∧ p.AtMost counts (n - counted counts notes) := by
  induction htrail with
  | start => exact ⟨Nat.zero_le _, h⟩
  | @next notes e next time time' a _ _ ih =>
    obtain ⟨hle, hweight, hrest⟩ := ih
    have hcounted : counted counts (notes ++ [.tried time e, .heard time' e a]) =
        counted counts notes + weight counts e := by
      rw [counted_append, ← counted_tried counts time e]
      rfl
    rw [hcounted, ← Nat.sub_sub]
    exact ⟨by omega, hrest a⟩

theorem awaits (h : p₀.AtMost counts n) (hawaits : p₀.Awaits notes p) :
    counted counts notes ≤ n := by
  obtain ⟨before, time, e, next, rfl, rfl, -, htrail⟩ := hawaits
  obtain ⟨hle, hweight, -⟩ := h.trail htrail
  rw [counted_append, counted_tried]
  omega

theorem follows (h : p₀.AtMost counts n) {s : Slot σ α} (hs : s.Follows p₀ notes) :
    counted counts notes ≤ n := by
  rcases hs.cases with ⟨p, htrail⟩ | ⟨p, hawaits⟩ | ⟨before, time, e, next, rfl, hawaits⟩
  · exact (h.trail htrail).1
  · exact h.awaits hawaits
  · rw [counted_append, show counted counts [.crashed time e] = 0 from rfl, Nat.add_zero]
    exact h.awaits hawaits

end AtMost

end Program

end Muster
