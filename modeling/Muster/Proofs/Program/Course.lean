import Muster.Proofs.Queue.Notes

/-! What a program does from any entry of its task on, and what it comes to. Main statements: a program of two
parts does what the first does and, if that comes to a result, what the second does from the entry as it is
by then; and what comes of a task is determined by what it did and was answered. -/

namespace Muster

open Progress (Entry)

variable {α β : Type}

/-- What a task did or heard, whenever that was. -/
def Note.untimed : Note → Note
  | .tried _ e => .tried 0 e
  | .heard _ e a => .heard 0 e a
  | .crashed _ e => .crashed 0 e

namespace Program

/-- From an entry on, a program does what the notes tell, and so becomes another. -/
inductive Takes : Program α → Entry → List Note → Program α → Prop where
  | stay (p : Program α) (entry : Entry) : Takes p entry [] p
  | act {e : Effect} {next : e.Answer → Program α} {entry : Entry} {time time' : Nat} {a : e.Answer}
    {notes : List Note} {p : Program α} : e.Agrees entry a →
    Takes (next a) (e.shown time' entry) notes p →
    Takes (.act e next) entry (.tried time e :: .heard time' e a :: notes) p

/-- From an entry on, a program does what the notes tell, and so comes to a result, or to none where it
crashes. -/
inductive Comes : Program α → Entry → List Note → Option α → Prop where
  | done (a : α) (entry : Entry) : Comes (.done a) entry [] (some a)
  | crash (entry : Entry) : Comes .crash entry [] none
  | crashed {e : Effect} {next : e.Answer → Program α} {time time' : Nat} (entry : Entry) :
    e.mayWait = true → Comes (.act e next) entry [.tried time e, .crashed time' e] none
  | act {e : Effect} {next : e.Answer → Program α} {entry : Entry} {time time' : Nat} {a : e.Answer}
    {notes : List Note} {a? : Option α} : e.Agrees entry a →
    Comes (next a) (e.shown time' entry) notes a? →
    Comes (.act e next) entry (.tried time e :: .heard time' e a :: notes) a?

namespace Takes

variable {p q : Program α} {entry : Entry} {notes : List Note}

theorem concat {e : Effect} {next : e.Answer → Program α} {time time' : Nat} {a : e.Answer}
    (h : p.Takes entry notes (.act e next)) (hagrees : e.Agrees (notes.foldl Note.shown entry) a) :
    p.Takes entry (notes ++ [.tried time e, .heard time' e a]) (next a) := by
  generalize hq : Program.act e next = q at h
  induction h with
  | stay p entry =>
    subst hq
    exact .act hagrees (.stay _ _)
  | act hfirst _ ih => exact .act hfirst (ih hagrees hq)

theorem comes {later : List Note} {a? : Option α} (h : p.Takes entry notes q)
    (hq : q.Comes (notes.foldl Note.shown entry) later a?) : p.Comes entry (notes ++ later) a? := by
  induction h with
  | stay => exact hq
  | act hagrees _ ih => exact .act hagrees (ih hq)

theorem comes_rest {later : List Note} {a? : Option α} (h : p.Takes entry notes q)
    (hp : p.Comes entry (notes ++ later) a?) : q.Comes (notes.foldl Note.shown entry) later a? := by
  induction h with
  | stay => exact hp
  | act _ _ ih =>
    cases hp with
    | act _ hnext => exact ih hnext

theorem bind (h : p.Takes entry notes q) (f : α → Program β) :
    (p.bind f).Takes entry notes (q.bind f) := by
  induction h with
  | stay => exact .stay _ _
  | act hagrees _ ih => exact .act hagrees ih

end Takes

namespace Comes

variable {p : Program α} {entry : Entry} {notes : List Note}

theorem of_done {a : α} {a? : Option α} (h : (Program.done a).Comes entry notes a?) :
    notes = [] ∧ a? = some a := by
  cases h
  exact ⟨rfl, rfl⟩

theorem of_crash {a? : Option α} (h : (Program.crash : Program α).Comes entry notes a?) :
    notes = [] ∧ a? = none := by
  cases h
  exact ⟨rfl, rfl⟩

theorem of_act {e : Effect} {next : e.Answer → Program α} {a? : Option α}
    (h : (Program.act e next).Comes entry notes a?) (hwait : e.mayWait = false) :
    ∃ time time' a later, notes = .tried time e :: .heard time' e a :: later ∧
      e.Agrees entry a ∧ (next a).Comes (e.shown time' entry) later a? := by
  cases h with
  | crashed _ hmay =>
    rw [hwait] at hmay
    exact absurd hmay (by decide)
  | act hagrees hnext => exact ⟨_, _, _, _, rfl, hagrees, hnext⟩

theorem takes {a : α} (h : p.Comes entry notes (some a)) : p.Takes entry notes (.done a) := by
  generalize ha : some a = a? at h
  induction h with
  | done =>
    cases ha
    exact .stay _ _
  | crash => exact nomatch ha
  | crashed => exact nomatch ha
  | act hagrees _ ih => exact .act hagrees (ih ha)

/-- A program of two parts crashes in the first, or goes through its end. -/
theorem of_bind {f : α → Program β} {b? : Option β} (h : (p.bind f).Comes entry notes b?) :
    (b? = none ∧ p.Comes entry notes none) ∨
      ∃ made later a, notes = made ++ later ∧ p.Comes entry made (some a) ∧
        (f a).Comes (made.foldl Note.shown entry) later b? := by
  induction p generalizing entry notes with
  | done a => exact .inr ⟨[], notes, a, rfl, .done a entry, h⟩
  | crash =>
    cases h
    exact .inl ⟨rfl, .crash entry⟩
  | act e next ih =>
    cases h with
    | crashed _ hwait => exact .inl ⟨rfl, .crashed entry hwait⟩
    | act hagrees hnext =>
      rcases ih _ hnext with ⟨rfl, hnone⟩ | ⟨made, later, a, rfl, hmade, hlater⟩
      · exact .inl ⟨rfl, .act hagrees hnone⟩
      · exact .inr ⟨_, later, a, rfl, .act hagrees hmade, hlater⟩

/-- A program comes to the same wherever it does and hears the same. -/
theorem determined {entry' : Entry} {notes' : List Note} {a? a'? : Option α}
    (h : p.Comes entry notes a?) (h' : p.Comes entry' notes' a'?)
    (hsame : notes.map Note.untimed = notes'.map Note.untimed) : a? = a'? := by
  induction h generalizing entry' notes' with
  | done => cases h' with
    | done => rfl
  | crash => cases h' with
    | crash => rfl
  | crashed => cases h' with
    | crashed => rfl
    | act => simp [Note.untimed] at hsame
  | act _ _ ih => cases h' with
    | crashed => simp [Note.untimed] at hsame
    | act _ hnext =>
      simp only [List.map_cons, Note.untimed, List.cons.injEq, Note.heard.injEq, heq_eq_eq,
        true_and] at hsame
      obtain ⟨rfl, hrest⟩ := hsame
      exact ih hnext hrest

end Comes

theorem Trail.takes {p₀ p : Program α} {notes : List Note} (h : p₀.Trail notes p) :
    p₀.Takes { message := "" } notes p := by
  induction h with
  | start => exact .stay _ _
  | next _ hagrees ih => exact ih.concat hagrees

end Program

/-- What a task that has ended came to, its program came to. -/
theorem Slot.Follows.comes {σ : Type} {p : Program α} {notes : List Note} {a? : Option α}
    (h : (Slot.ended a? : Slot σ α).Follows p notes) : p.Comes { message := "" } notes a? := by
  cases a? with
  | some a =>
    have hdone := (Program.Trail.takes h).comes (.done a _)
    rwa [List.append_nil] at hdone
  | none =>
    rcases h with htrail | ⟨_, time, e, next, rfl, before, time', e', next', rfl, heq, hwait, htrail⟩
    · have hcrash := htrail.takes.comes (.crash _)
      rwa [List.append_nil] at hcrash
    · cases heq
      rw [List.append_assoc]
      exact htrail.takes.comes (.crashed _ hwait)

theorem Slot.Follows.determined {σ τ : Type} {p : Program α} {notes notes' : List Note}
    {a? a'? : Option α} (h : (Slot.ended a? : Slot σ α).Follows p notes)
    (h' : (Slot.ended a'? : Slot τ α).Follows p notes')
    (hsame : notes.map Note.untimed = notes'.map Note.untimed) : a? = a'? :=
  h.comes.determined h'.comes hsame

end Muster
