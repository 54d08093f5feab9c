import Muster.Proofs.Queue.Notes

/-! What a program leaves on the entry of its task, and what it comes to. A postcondition that holds of a
program holds of each task that ends with it, however the task was answered and delayed. -/

namespace Muster

open Progress (Entry Change)

variable {σ α β : Type}

namespace Program

/-- From an entry on, the program ends with a result and an entry as `ends` says, and where it may crash
the entry is as `crashes` says. -/
def Leaves (crashes : Entry → Prop) (ends : α → Entry → Prop) : Program α → Entry → Prop
  | .done a, entry => ends a entry
  | .crash, entry => crashes entry
  | .act e next, entry => (e.mayWait = true → crashes entry) ∧
      ∀ time a, e.Agrees entry a → (next a).Leaves crashes ends (e.shown time entry)

namespace Leaves

variable {crashes : Entry → Prop} {ends ends' : α → Entry → Prop} {p p₀ : Program α}
  {entry : Entry} {notes : List Note}

theorem mono (h : p.Leaves crashes ends entry) (himp : ∀ a e, ends a e → ends' a e) :
    p.Leaves crashes ends' entry := by
  induction p generalizing entry with
  | done a => exact himp a entry h
  | crash => exact h
  | act e next ih => exact ⟨h.1, fun time a ha => ih a (h.2 time a ha)⟩

theorem bind {after : β → Entry → Prop} {f : α → Program β} (h : p.Leaves crashes ends entry)
    (hf : ∀ a e, ends a e → (f a).Leaves crashes after e) :
    (p.bind f).Leaves crashes after entry := by
  induction p generalizing entry with
  | done a => exact hf a entry h
  | crash => exact h
  | act e next ih => exact ⟨h.1, fun time a ha => ih a (h.2 time a ha)⟩

/-- What is left of the program goes on from what its entry shows by then. -/
theorem trail (h : p₀.Leaves crashes ends { message := "" }) (htrail : p₀.Trail notes p) :
    p.Leaves crashes ends (shown notes) := by
  induction htrail with
  | start => exact h
  | @next notes e next time time' a _ hagrees ih =>
    have hshown : shown (notes ++ [.tried time e, .heard time' e a]) =
        e.shown time' (shown notes) := by
      rw [← List.singleton_append, ← List.append_assoc, shown_heard, shown_tried]
    exact hshown ▸ ih.2 time' a hagrees

theorem awaits (h : p₀.Leaves crashes ends { message := "" }) (hawaits : p₀.Awaits notes p) :
    crashes (shown notes) := by
  obtain ⟨before, time, e, next, rfl, rfl, hwait, htrail⟩ := hawaits
  rw [shown_tried]
  exact (h.trail htrail).1 hwait

theorem ended {a : α} (h : p₀.Leaves crashes ends { message := "" })
    (hs : (Slot.ended (some a) : Slot σ α).Follows p₀ notes) : ends a (shown notes) := h.trail hs

theorem crashed (h : p₀.Leaves crashes ends { message := "" })
    (hs : (Slot.ended none : Slot σ α).Follows p₀ notes) : crashes (shown notes) := by
  rcases hs with htrail | ⟨before, time, e, next, rfl, hawaits⟩
  · exact h.trail htrail
  · rw [shown_crashed]
    exact h.awaits hawaits

end Leaves

section Parts

variable {crashes : Entry → Prop} {entry : Entry}

theorem leaves_change (c : Change) {ends : Unit → Entry → Prop}
    (h : ∀ time, ends () (entry.apply time c)) : (change c).Leaves crashes ends entry :=
  ⟨fun hwait => absurd hwait Bool.false_ne_true, fun time _ _ => h time⟩

theorem leaves_call (c : Call) (hcrash : crashes entry) :
    (call c).Leaves crashes (fun _ e => e = entry) entry := ⟨fun _ => hcrash, fun _ _ _ => rfl⟩

end Parts

end Program

end Muster
