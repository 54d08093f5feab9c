import Muster.Proofs.Dispatch.Results

/-! The calls of a run, each with the task that made it. -/

namespace Muster

variable {σ : Type}

/-- A call with the task that made it, and when. -/
structure MadeCall where
  job : Nat
  time : Nat
  call : Call
  deriving DecidableEq, Repr

def callsOf (notes : List (Nat × Note)) : List MadeCall :=
  notes.filterMap fun n => n.2.call?.map fun c => ⟨n.1, c.1, c.2⟩

theorem times_callsOf (notes : List (Nat × Note)) :
    (callsOf notes).map (fun m => (m.time, m.call)) = notes.filterMap (·.2.call?) := by
  simp only [callsOf, List.map_filterMap, Option.map_map]
  refine List.filterMap_congr fun n _ => ?_
  exact Option.map_id_apply

theorem mem_own_of_mem_callsOf {notes : List (Nat × Note)} {m : MadeCall}
    (h : m ∈ callsOf notes) : .tried m.time (.call m.call) ∈ own m.job notes := by
  obtain ⟨⟨job, note⟩, hmem, hm⟩ := List.mem_filterMap.mp h
  obtain ⟨c, hcall, rfl⟩ := Option.map_eq_some_iff.mp hm
  obtain rfl : note = .tried c.1 (.call c.2) := by
    cases note with
    | heard => simp [Note.call?] at hcall
    | crashed => simp [Note.call?] at hcall
    | tried time e =>
      cases e with
      | call c' =>
        cases hcall
        rfl
      | _ => simp [Note.call?] at hcall
  exact List.mem_filterMap.mpr ⟨_, hmem, by simp⟩

theorem calls_own (job : Nat) (notes : List (Nat × Note)) :
    ((callsOf notes).filter (·.job == job)).map (·.call) =
      (own job notes).filterMap fun n => n.call?.map (·.2) := by
  induction notes with
  | nil => rfl
  | cons n notes ih =>
    obtain ⟨other, note⟩ := n
    simp only [callsOf, own] at ih
    by_cases hjob : other = job
    · cases hcall : note.call? with
      | none => simpa [callsOf, own, hcall, hjob] using ih
      | some c => simpa [callsOf, own, hcall, hjob] using ih
    · cases hcall : note.call? with
      | none => simpa [callsOf, own, hcall, hjob] using ih
      | some c => simpa [callsOf, own, hcall, hjob] using ih

theorem World.recorded_of_call {b : Backend σ} {own? : Option Nat} {c : Call} {w w' : World σ}
    {reply? : Option (Except ApiError c.Answer)}
    (h : runAlone b own? (Program.call c) w = (reply?, w')) :
    w'.events = w.events ++ [(w.now, .called c)] ∧ w'.calls = w.calls ++ [(w.now, c)] := by
  have hjournal := journal_runAlone_call b own? c w
  rw [h] at hjournal
  constructor
  · rw [← events_record, events, hjournal, events]
  · rw [calls_of_journal hjournal, calls_record]

end Muster
