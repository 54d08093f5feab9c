import Muster.Dispatch
import Muster.Proofs.Program.Alone

/-! The arguments that a command acts on, for each of its modes. -/

namespace Muster

variable {σ : Type}

theorem Candidates.all_ne_nil {c : Candidates} {uuids : List String} (h : c.all = .ok uuids) :
    uuids ≠ [] := by
  unfold all at h
  split at h
  · simp at h
  · rename_i hbest
    cases h
    exact hbest

namespace Dispatch

theorem resolveAll_ne_nil (k : Kind) (items : List k.Resource) (arg : String) :
    resolveAll k items arg ≠ [] := by
  unfold resolveAll
  split
  · rename_i hall
    simpa using Candidates.all_ne_nil hall
  · simp

theorem flatMap_resolveAll_ne_nil (k : Kind) (items : List k.Resource) {args : List String}
    (hargs : args ≠ []) : args.flatMap (resolveAll k items) ≠ [] := by
  obtain ⟨arg, hmem⟩ := List.exists_mem_of_ne_nil args hargs
  intro hnil
  exact resolveAll_ne_nil k items arg (List.flatMap_eq_nil_iff.mp hnil arg hmem)

theorem orEmpty_of_ne_nil {found : List Resolved} (h : found ≠ []) : orEmpty found = found := by
  simp [orEmpty, h]

theorem runAlone_fetch (b : Backend σ) (k : Kind) (w : World σ) :
    runAlone b none (fetch k) w =
      match runAlone b none (Program.call k.listing) w with
      | (reply?, w) => (reply?.map fun reply => reply.map k.ofListing, w) := by
  change runAlone b none ((Program.call k.listing).bind fun r => .done _) w = _
  rw [runAlone_bind]
  rcases runAlone b none (Program.call k.listing) w with ⟨_ | _ | l, w'⟩ <;> rfl

/-- The arguments are looked up in what the service listed. -/
theorem search_of_listed {b : Backend σ} {k : Kind} {args : List String} (hargs : args ≠ [])
    {find : List k.Resource → List Resolved} {world w : World σ} {answer : k.listing.Answer}
    (hlist : runAlone b none (Program.call k.listing) world = (some (.ok answer), w)) :
    runAlone b none (search k args find) world =
      (some (.ok ((⟨some (k.ofListing answer)⟩ : Snapshot k), find (k.ofListing answer))), w) := by
  have hsurvey : runAlone b none (survey k args) world = (some (.ok (k.ofListing answer)), w) := by
    simp only [survey, List.isEmpty_iff, hargs, if_false]
    change runAlone b none ((fetch k).bind fun r => .done _) world = _
    rw [runAlone_bind, runAlone_fetch, hlist]
    rfl
  change runAlone b none ((survey k args).bind fun r => .done _) world = _
  rw [runAlone_bind, hsurvey]
  rfl

end Dispatch

end Muster
