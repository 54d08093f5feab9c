import Mathlib.Logic.Basic
import Muster.Proofs.Config.Precedence
import Muster.Session.Resume

/-! The spans of time that a run is configured with. Main statement: flags, variables and defaults leave each
of them above zero, and the only one that a file can make zero is the timeout of requests. -/

namespace Muster

namespace Config

theorem seconds?_pos {value : String} {seconds : Nat} (h : seconds? value = some seconds) :
    0 < seconds := by
  obtain ⟨n, -, rfl⟩ := Option.map_eq_some_iff.mp h
  exact Nat.le_max_left 1 n

theorem eq_whole_of_count? {t : Toml} {n : Nat} (h : count? t = some n) : t = .whole n := by
  unfold count? at h
  split at h
  · rw [Option.some.inj h]
    rfl
  · exact nomatch h

/-- The timeout of requests is zero only if the document says so and nothing goes before the document. -/
theorem Decided.timeout_eq_zero_iff {g : CommandLine.Given} {env : String → Option String}
    {fields : Toml.Fields} {c : Config} (h : c.Decided g env fields) :
    c.api.timeout = 0 ↔ g.timeout? = none ∧ env timeoutVariable = none ∧
      said? fields "api" "timeout_secs" 3 = some (.whole 0) := by
  obtain ⟨seconds, hread, htimeout⟩ := Option.map_eq_some_iff.mp h.timeout
  have hvariable : env "CLOUDCTL_CLIENT_TIMEOUT" = env timeoutVariable := rfl
  rw [hvariable] at htimeout
  constructor
  · intro hzero
    rw [hzero] at htimeout
    cases hflag : g.timeout? with
    | some n => simp [hflag] at htimeout
    | none =>
      cases hset : env timeoutVariable with
      | some value =>
        obtain ⟨n, hn⟩ := Option.isSome_iff_exists.mp (h.variable_isSome value hset)
        have hpos := seconds?_pos hn
        simp only [hflag, hset, Option.map_none, Option.none_or, Option.bind_some, hn,
          Option.getD_some] at htimeout
        omega
      | none =>
        obtain rfl : seconds = 0 := by simpa [hflag, hset] using htimeout
        cases hsaid : said? fields "api" "timeout_secs" 3 with
        | none => simp [hsaid, orDefault] at hread
        | some t =>
          rw [hsaid] at hread
          exact ⟨rfl, rfl, congrArg some (eq_whole_of_count? hread)⟩
  · rintro ⟨hflag, hset, hsaid⟩
    rw [hsaid] at hread
    obtain rfl : 0 = seconds := Option.some.inj hread
    simpa [hflag, hset] using htimeout.symm

end Config

namespace Session

open Config

theorem patience_of_configured {place : Surroundings} {words : List String}
    {i : CommandLine.Invocation} {c : Config} (hparse : CommandLine.parse words = .ok i)
    (hc : configure place i.given = .ok c) : patience place words = c.api.timeout := by
  simp only [patience, hparse, hc]

/-- In a run that is configured, requests have at least a second and waits at least a second between
checks a millisecond apart, whatever flags, variables and files say; but for a file that gives requests no
time at all, with neither a flag nor a variable before it. -/
theorem spans_pos_of_configured {place : Surroundings} {words : List String}
    {i : CommandLine.Invocation} {c : Config} (hparse : CommandLine.parse words = .ok i)
    (hc : configure place i.given = .ok c) :
    (∃ text fields, place.textOf (place.source i.given) = .ok text ∧ Toml.read? text = some fields ∧
      (1 ≤ patience place words ↔ i.given.timeout?.isSome ∨ (place.env timeoutVariable).isSome ∨
        said? fields "api" "timeout_secs" 3 ≠ some (.whole 0))) ∧
    1 ≤ (c.waitPolicy place.interrupts).interval ∧ 1 ≤ (c.waitPolicy place.interrupts).timeout := by
  obtain ⟨loaded, hloaded, rfl, -⟩ := configure_eq_ok_iff.mp hc
  obtain ⟨text, fields, file, htext, hfields, hfile, hloaded⟩ := read_of_load hloaded
  have hzero := (decided_of_loaded (g := i.given) hfile hloaded).timeout_eq_zero_iff
  refine ⟨⟨text, fields, htext, hfields, ?_⟩, Nat.le_max_left 1 _, Nat.le_max_left 1 _⟩
  rw [patience_of_configured hparse hc, Nat.one_le_iff_ne_zero, Ne, hzero, not_and_or, not_and_or,
    ← Ne, ← Ne, Option.ne_none_iff_isSome, Option.ne_none_iff_isSome]

/-- A place with a name and a password, whose near file gives requests no time. -/
def hurried : Surroundings where
  env := fun name => [("CLOUDCTL_USERNAME", "u"), ("CLOUDCTL_PASSWORD", "p")].lookup name
  file := fun path =>
    if path = fileName then .content "[api]\ntimeout_secs=0".toUTF8 else .missing

theorem configure_hurried (g : CommandLine.Given) (hasked : g.config? = none) :
    configure hurried g =
      .ok ({ api := { username := "u", password := "p", timeout := 0 } : Config }.prefer g) := by
  have hloaded : load (g.config?.map hurried.file) hurried.nearFile hurried.farFile hurried.env =
      .ok { api := { username := "u", password := "p", timeout := 0 } } := by
    rw [hasked]
    exact eq_ok_of_toOption (by decide +kernel)
  refine configure_eq_ok_iff.mpr ⟨_, hloaded, rfl, ?_⟩
  simp only [hasCredentials, prefer]
  decide

/-- A flag of zero seconds gives requests one second where the file gives them none. -/
theorem spans_pos_of_configured_flag :
    let words := ["--client-timeout", "0", "account", "show"]
    let g : CommandLine.Given := { timeout? := some 0 }
    let c : Config := { api := { username := "u", password := "p", timeout := 1 } }
    CommandLine.parse words = .ok ⟨g, .accountShow, []⟩ ∧ configure hurried g = .ok c ∧
      1 ≤ patience hurried words ∧ 1 ≤ (c.waitPolicy hurried.interrupts).interval ∧
      1 ≤ (c.waitPolicy hurried.interrupts).timeout := by
  intro words g c
  have hparse : CommandLine.parse words = .ok ⟨g, .accountShow, []⟩ := rfl
  have hc : configure hurried g = .ok c := configure_hurried g rfl
  obtain ⟨⟨_, _, -, -, hpatience⟩, hinterval, htimeout⟩ := spans_pos_of_configured hparse hc
  exact ⟨hparse, hc, hpatience.mpr (.inl rfl), hinterval, htimeout⟩

/-- A file can leave requests without any time. -/
theorem patience_zero_of_hurried :
    ¬ ∀ (place : Surroundings) (words : List String) (i : CommandLine.Invocation) (c : Config),
      CommandLine.parse words = .ok i → configure place i.given = .ok c →
        1 ≤ patience place words ∧ 1 ≤ (c.waitPolicy place.interrupts).interval ∧
          1 ≤ (c.waitPolicy place.interrupts).timeout := by
  intro h
  have hparse : CommandLine.parse ["account", "show"] = .ok ⟨{}, .accountShow, []⟩ := rfl
  have hc := configure_hurried {} rfl
  obtain ⟨hpatience, -⟩ := h hurried ["account", "show"] _ _ hparse hc
  rw [patience_of_configured hparse hc] at hpatience
  exact absurd hpatience (by decide)

end Session

end Muster
