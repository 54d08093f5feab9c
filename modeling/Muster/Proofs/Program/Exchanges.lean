import Muster.Proofs.Queue.Notes

/-! The calls of one task with their answers. A statement about the calls of a program and about what it
comes to holds of each task that keeps to the program, however the task was answered and delayed. -/

namespace Muster

variable {σ α β : Type}

/-- A call with its answer. There is none if the task crashed while it waited for one. -/
structure Exchange where
  call : Call
  reply? : Option (Except ApiError call.Answer)

def Effect.exchange : (e : Effect) → Option e.Answer → List Exchange
  | .call c, reply? => [⟨c, reply?⟩]
  | _, _ => []

/-- An answer takes the place of the call that waited for it. -/
def Note.exchange (made : List Exchange) : Note → List Exchange
  | .tried _ e => made ++ e.exchange none
  | .heard _ (.call c) a => made.dropLast ++ [⟨c, some a⟩]
  | .heard _ _ _ => made
  | .crashed _ _ => made

def exchanges (notes : List Note) : List Exchange := notes.foldl Note.exchange []

theorem exchanges_tried (notes : List Note) (time : Nat) (e : Effect) :
    exchanges (notes ++ [.tried time e]) = exchanges notes ++ e.exchange none := by
  rw [exchanges, List.foldl_append]
  rfl

theorem exchanges_crashed (notes : List Note) (time : Nat) (e : Effect) :
    exchanges (notes ++ [.crashed time e]) = exchanges notes := by
  rw [exchanges, List.foldl_append]
  rfl

theorem exchanges_heard (notes : List Note) (time time' : Nat) (e : Effect) (a : e.Answer) :
    exchanges (notes ++ [.tried time e, .heard time' e a]) =
      exchanges notes ++ e.exchange (some a) := by
  rw [exchanges, List.foldl_append]
  change Note.exchange (exchanges notes ++ e.exchange none) (.heard time' e a) = _
  cases e with
  | call c =>
    change (exchanges notes ++ [Exchange.mk c none]).dropLast ++ [⟨c, some a⟩] = _
    rw [List.dropLast_concat]
    rfl
  | _ => rfl

theorem Effect.call_exchange (e : Effect) (time : Nat) (a? : Option e.Answer) :
    (e.exchange a?).map (·.call) = ((Note.tried time e).call?.map (·.2)).toList := by
  cases e <;> rfl

namespace Program

/-- The exchanges of a task are its calls, in order. -/
theorem Trail.call_exchanges {p₀ p : Program α} {notes : List Note} (h : p₀.Trail notes p) :
    (exchanges notes).map (·.call) = notes.filterMap fun n => n.call?.map (·.2) := by
  induction h with
  | start => rfl
  | @next notes e next time time' a _ _ ih =>
    rw [exchanges_heard, List.map_append, List.filterMap_append, ih, e.call_exchange time]
    cases e <;> rfl

theorem Awaits.call_exchanges {p₀ p : Program α} {notes : List Note} (h : p₀.Awaits notes p) :
    (exchanges notes).map (·.call) = notes.filterMap fun n => n.call?.map (·.2) := by
  obtain ⟨before, time, e, next, rfl, -, -, htrail⟩ := h
  rw [exchanges_tried, List.map_append, List.filterMap_append, htrail.call_exchanges,
    e.call_exchange time]
  cases e <;> rfl

/-- After some exchanges, the program ends with a result and more of them as `ends` says, and where it may
crash they are as `crashes` says. -/
def Makes (crashes : List Exchange → Prop) (ends : α → List Exchange → Prop) :
    Program α → List Exchange → Prop
  | .done a, made => ends a made
  | .crash, made => crashes made
  | .act e next, made => (e.mayWait = true → crashes (made ++ e.exchange none)) ∧
      ∀ a, (next a).Makes crashes ends (made ++ e.exchange (some a))

namespace Makes

variable {crashes : List Exchange → Prop} {ends : α → List Exchange → Prop} {p p₀ : Program α}
  {made : List Exchange} {notes : List Note}

theorem mono {crashes' : List Exchange → Prop} {ends' : α → List Exchange → Prop}
    (h : p.Makes crashes ends made) (hcrash : ∀ m, crashes m → crashes' m)
    (hend : ∀ a m, ends a m → ends' a m) : p.Makes crashes' ends' made := by
  induction p generalizing made with
  | done a => exact hend a made h
  | crash => exact hcrash made h
  | act e next ih => exact ⟨fun hwait => hcrash _ (h.1 hwait), fun a => ih a (h.2 a)⟩

theorem imp {ends' : α → List Exchange → Prop} (h : p.Makes crashes ends made)
    (hend : ∀ a m, ends a m → ends' a m) : p.Makes crashes ends' made :=
  h.mono (fun _ hm => hm) hend

theorem bind {after : β → List Exchange → Prop} {f : α → Program β}
    (h : p.Makes crashes ends made) (hf : ∀ a m, ends a m → (f a).Makes crashes after m) :
    (p.bind f).Makes crashes after made := by
  induction p generalizing made with
  | done a => exact hf a made h
  | crash => exact h
  | act e next ih => exact ⟨h.1, fun a => ih a (h.2 a)⟩

theorem trail (h : p₀.Makes crashes ends []) (htrail : p₀.Trail notes p) :
    p.Makes crashes ends (exchanges notes) := by
  induction htrail with
  | start => exact h
  | next _ _ ih =>
    rw [exchanges_heard]
    exact ih.2 _

theorem awaits (h : p₀.Makes crashes ends []) (hawaits : p₀.Awaits notes p) :
    crashes (exchanges notes) := by
  obtain ⟨before, time, e, next, rfl, rfl, hwait, htrail⟩ := hawaits
  rw [exchanges_tried]
  exact (h.trail htrail).1 hwait

theorem ended {a : α} (h : p₀.Makes crashes ends [])
    (hs : (Slot.ended (some a) : Slot σ α).Follows p₀ notes) : ends a (exchanges notes) := h.trail hs

theorem crashed (h : p₀.Makes crashes ends [])
    (hs : (Slot.ended none : Slot σ α).Follows p₀ notes) : crashes (exchanges notes) := by
  rcases hs with htrail | ⟨before, time, e, next, rfl, hawaits⟩
  · exact h.trail htrail
  · rw [exchanges_crashed]
    exact h.awaits hawaits

end Makes

section Parts

variable {crashes : List Exchange → Prop} {made : List Exchange}

/-- A change of the entry makes no call, and does not crash. -/
theorem makes_change (c : Progress.Change) {ends : Unit → List Exchange → Prop} (h : ends () made) :
    (change c).Makes crashes ends made := by
  refine ⟨fun hwait => absurd hwait Bool.false_ne_true, fun _ => ?_⟩
  change ends () (made ++ [])
  rwa [List.append_nil]

theorem makes_call (c : Call) {ends : Except ApiError c.Answer → List Exchange → Prop}
    (hcrash : crashes (made ++ [⟨c, none⟩])) (h : ∀ a, ends a (made ++ [⟨c, some a⟩])) :
    (call c).Makes crashes ends made := ⟨fun _ => hcrash, h⟩

theorem makes_clock {f : Nat → Program α} {ends : α → List Exchange → Prop}
    (h : ∀ now, (f now).Makes crashes ends made) : (clock.bind f).Makes crashes ends made := by
  refine ⟨fun hwait => absurd hwait Bool.false_ne_true, fun now => ?_⟩
  change (f now).Makes crashes ends (made ++ [])
  rw [List.append_nil]
  exact h now

theorem makes_sleepUntil (time : Nat) {ends : Unit → List Exchange → Prop}
    (hcrash : crashes made) (h : ends () made) : (sleepUntil time).Makes crashes ends made := by
  refine ⟨fun _ => ?_, fun _ => ?_⟩
  · change crashes (made ++ [])
    rwa [List.append_nil]
  · change ends () (made ++ [])
    rwa [List.append_nil]

end Parts

end Program

theorem Slot.Follows.call_exchanges {p₀ : Program α} {notes : List Note} {s : Slot σ α}
    (h : s.Follows p₀ notes) :
    (exchanges notes).map (·.call) = notes.filterMap fun n => n.call?.map (·.2) := by
  rcases h.cases with ⟨p, htrail⟩ | ⟨p, hawaits⟩ | ⟨before, time, e, next, rfl, hawaits⟩
  · exact htrail.call_exchanges
  · exact hawaits.call_exchanges
  · rw [exchanges_crashed, List.filterMap_append, hawaits.call_exchanges]
    exact (List.append_nil _).symm

end Muster
