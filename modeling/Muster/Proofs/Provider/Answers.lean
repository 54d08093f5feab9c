import Muster.Proofs.Dispatch.Shown
import Muster.Proofs.Provider.Listings

/-! What a provider answers. Main statement: a lookup is answered from the list that the service gave
last, and a resolver answers from the list that it was given out with, whatever is asked for later. What a
list resolves is also found in it. -/

namespace Muster

variable {σ : Type}

namespace Provider

/-- Whether a request only looks something up. -/
def Request.looksUp : Request σ → Bool
  | .fetch => false
  | .alter _ => false
  | _ => true

variable {b : Backend σ} {k : Kind}

/-- A provider that was given some lists from its start. -/
def keeping (lists : List (List k.Resource)) (w : World σ) : Provider σ k where
  world := w
  cache := ⟨lists.getLast?⟩
  resolvers := lists

theorem answers_eq_keeping (b : Backend σ) (k : Kind) (start : World σ) (qs : List (Request σ)) :
    (({ world := start } : Provider σ k).answers b qs).2 =
      keeping (listings b k start qs).1 (listings b k start qs).2 := by
  rw [answers_eq_given, given]
  simp only [Option.or_none, List.nil_append]
  rfl

theorem find_keeping (lists : List (List k.Resource)) (w : World σ) (uuid : String) :
    ((keeping lists w).answer b (.find uuid)).1 = .found
      (match lists.getLast? with
      | none => .error (.uninitialized k.name)
      | some items =>
        match items.find? fun item => k.uuid item == uuid with
        | none => .error (.notFound uuid)
        | some item => .ok item) := by
  simp only [answer, keeping, Snapshot.find, Snapshot.load]
  cases lists.getLast? <;> rfl

theorem resolve_keeping (lists : List (List k.Resource)) (w : World σ) (arg : String) :
    ((keeping lists w).answer b (.resolve arg)).1 = .resolved
      (match lists.getLast? with
      | none => .error (.uninitialized k.name)
      | some items => (Candidates.among k items arg).only) := by
  simp only [answer, keeping, Snapshot.resolve, Snapshot.load]
  cases lists.getLast? <;> rfl

theorem fetch_keeping {lists : List (List k.Resource)} {w w' : World σ}
    {reply? : Option (Except ApiError k.listing.Answer)}
    (h : runAlone b none (Program.call k.listing) w = (reply?, w')) :
    ((keeping lists w).answer b .fetch).1 =
      .fetched (reply?.map fun reply => reply.map fun _ => lists.length) := by
  have hfetch := Dispatch.runAlone_fetch b k w
  rw [h] at hfetch
  simp only [answer, fetch, keeping, hfetch]
  rcases reply? with _ | _ | l <;> rfl

theorem consult_keeping (lists : List (List k.Resource)) (w : World σ) (i : Nat) (arg : String) :
    ((keeping lists w).answer b (.consult i arg)).1 =
      .consulted (lists[i]?.map fun items => .among k items arg) := rfl

/-- The service does not matter to a lookup. -/
theorem looksUp_keeping (lists : List (List k.Resource)) (w w' : World σ) {q : Request σ}
    (h : q.looksUp = true) :
    ((keeping lists w).answer b q).1 = ((keeping lists w').answer b q).1 := by
  cases q with
  | fetch => simp [Request.looksUp] at h
  | alter change => simp [Request.looksUp] at h
  | _ => rfl

/-- An answer that resolves an argument comes from the list that is looked up in. -/
theorem mem_best_of_answer {lists : List (List k.Resource)} {w : World σ} {arg uuid : String}
    (h : ((keeping lists w).answer b (.resolve arg)).1 = .resolved (.ok uuid) ∨
      ∃ c, ((keeping lists w).answer b (.consult (lists.length - 1) arg)).1 = .consulted (some c) ∧
        (c.only = .ok uuid ∨ ∃ uuids, c.all = .ok uuids ∧ uuid ∈ uuids)) :
    ∃ items, lists.getLast? = some items ∧ uuid ∈ (Candidates.among k items arg).best := by
  rcases h with hresolved | ⟨c, hconsulted, hc⟩
  · rw [resolve_keeping] at hresolved
    cases hlast : lists.getLast? with
    | none => simp [hlast] at hresolved
    | some items =>
      have honly : (Candidates.among k items arg).only = .ok uuid := by
        simpa [hlast] using hresolved
      exact ⟨items, rfl, Candidates.mem_best_of_only honly⟩
  · rw [consult_keeping, ← List.getLast?_eq_getElem?] at hconsulted
    cases hlast : lists.getLast? with
    | none => simp [hlast] at hconsulted
    | some items =>
      obtain rfl : Candidates.among k items arg = c := by simpa [hlast] using hconsulted
      refine ⟨items, rfl, ?_⟩
      rcases hc with honly | ⟨uuids, hall, hmem⟩
      · exact Candidates.mem_best_of_only honly
      · exact Candidates.mem_best_of_all hall hmem

theorem listings_fetch {start w : World σ} {before : List (Request σ)}
    {reply? : Option (Except ApiError k.listing.Answer)}
    (h : runAlone b none (Program.call k.listing) (listings b k start before).2 = (reply?, w))
    (later : List (Request σ)) :
    (listings b k start (before ++ .fetch :: later)).1 =
      (listings b k start before).1 ++
        (((reply?.bind Except.toOption).map k.ofListing).toList ++ (listings b k w later).1) := by
  rw [listings_append]
  simp only [listings, listing, h]
  rcases reply? with _ | _ | l <;> rfl

/-- A fetch that fails changes nothing but the service. -/
theorem answers_of_failed {p : Provider σ k} {before : List (Request σ)} {w : World σ}
    {failure? : Option (Except ApiError k.listing.Answer)}
    (h : runAlone b none (Program.call k.listing) (p.answers b before).2.world = (failure?, w))
    (hfailure : ∀ l, failure? ≠ some (.ok l)) (later : List (Request σ)) :
    (p.answers b (before ++ .fetch :: later)).1.drop (before.length + 1) =
      ({ (p.answers b before).2 with world := w }.answers b later).1 := by
  have hfetch := Dispatch.runAlone_fetch b k (p.answers b before).2.world
  rw [h] at hfetch
  have hstays : ((p.answers b before).2.fetch b).2 = { (p.answers b before).2 with world := w } := by
    simp only [fetch, hfetch]
    rcases failure? with _ | _ | l
    · rfl
    · rfl
    · exact absurd rfl (hfailure l)
  have hlength : (p.answers b before).1.length = before.length := length_answers p before
  rw [answers_append, ← hlength, List.drop_length_add_append]
  simp only [answers, answer, hstays, List.drop_succ_cons, List.drop_zero]

/-- The answers of a provider, whatever was requested before and is requested after, by the lists that the
service gave until then. A fetch that gets no list leaves the provider as it was. -/
theorem answers_from_listings (b : Backend σ) (k : Kind) (start : World σ)
    (before after : List (Request σ)) :
    let p : Provider σ k := { world := start }
    let asked (qs : List (Request σ)) (q : Request σ) : Option (Answer k) :=
      (p.answers b (qs ++ q :: after)).1[qs.length]?
    let lists (qs : List (Request σ)) : List (List k.Resource) := (listings b k start qs).1
    let now : World σ := (listings b k start before).2
    -- lookups, answered the same until a fetch succeeds
    (∀ uuid, asked before (.find uuid) = some (.found
      (match (lists before).getLast? with
      | none => .error (.uninitialized k.name)
      | some items =>
        match items.find? fun item => k.uuid item == uuid with
        | none => .error (.notFound uuid)
        | some item => .ok item))) ∧
    (∀ arg, asked before (.resolve arg) = some (.resolved
      (match (lists before).getLast? with
      | none => .error (.uninitialized k.name)
      | some items => (Candidates.among k items arg).only))) ∧
    (∀ i arg, asked before (.consult i arg) = some (.consulted
      ((lists before)[i]?.map fun items => .among k items arg))) ∧
    (∀ later, lists (before ++ later) = lists before → ∀ q : Request σ, q.looksUp = true →
      asked (before ++ later) q = asked before q) ∧
    -- a fetch that succeeds, and one that does not
    (∀ l w, runAlone b none (Program.call k.listing) now = (some (.ok l), w) →
      asked before .fetch = some (.fetched (some (.ok (lists before).length))) ∧
      ∀ later,
        lists (before ++ .fetch :: later) =
          lists before ++ k.ofListing l :: (listings b k w later).1 ∧
        ∀ arg, asked (before ++ .fetch :: later) (.consult (lists before).length arg) =
          some (.consulted (some (.among k (k.ofListing l) arg)))) ∧
    (∀ failure? w, runAlone b none (Program.call k.listing) now = (failure?, w) →
      (∀ l, failure? ≠ some (.ok l)) →
      asked before .fetch = some (.fetched
        (failure?.map fun failure => failure.map fun _ => (lists before).length)) ∧
      ∀ later,
        lists (before ++ .fetch :: later) = lists before ++ (listings b k w later).1 ∧
        (p.answers b (before ++ .fetch :: later)).1.drop (before.length + 1) =
          ({ (p.answers b before).2 with world := w }.answers b later).1) ∧
    -- what has been resolved is found until the next list
    (∀ arg uuid,
      (asked before (.resolve arg) = some (.resolved (.ok uuid)) ∨
        ∃ c, asked before (.consult ((lists before).length - 1) arg) =
            some (.consulted (some c)) ∧
          (c.only = .ok uuid ∨ ∃ uuids, c.all = .ok uuids ∧ uuid ∈ uuids)) →
      ∃ items item, (lists before).getLast? = some items ∧
        items.find? (fun item => k.uuid item == uuid) = some item ∧ k.uuid item = uuid ∧
        ∀ later, lists (before ++ later) = lists before →
          asked (before ++ later) (.find uuid) = some (.found (.ok item))) ∧
    -- and shown
    ∀ (a : Action) (view : k.Resource → Details) (policy : WaitPolicy) (raw : List String)
      (display : Display) (l : k.listing.Answer) (w : World σ),
      a.shown? = some ⟨k, view⟩ → raw ≠ [] →
      runAlone b none (Program.call k.listing) now = (some (.ok l), w) →
      let items := k.ofListing l
      ∃ (known : a.mode.Known) (args : List Resolved),
        let run := Running.start a.limit
          (args.map (Dispatch.task (a.command policy) known)) w display
        runAlone b none (Dispatch.resolve raw a.mode) now = (some (.ok (known, args)), w) ∧
        (∃ q, Running.Reachable b run ⟨.returned, q⟩ ∧
          Dispatch.run b (a.command policy) raw now display =
            .finished (Dispatch.gather args q.results) q) ∧
        ∀ q : Queue σ Outcome, Running.Reachable b run ⟨.returned, q⟩ →
          let results := Dispatch.gather args q.results
          (∀ arg ∈ raw, ∀ uuids, a.mode.chosen (.among k items arg) = .ok uuids →
            ∀ uuid ∈ uuids, ∃ r ∈ results, r.argument = ⟨arg, uuid, none⟩) ∧
          ∀ r ∈ results, r.argument.error? = none → ∃ item,
            items.find? (fun item => k.uuid item == r.argument.value) = some item ∧
            k.uuid item = r.argument.value ∧ r.outcome = .ok (.details (view item)) := by
  intro p asked lists now
  have hasked (qs : List (Request σ)) (q : Request σ) :
      asked qs q = some ((keeping (lists qs) (listings b k start qs).2).answer b q).1 := by
    simp only [asked, p, lists, answer_at, answers_eq_keeping]
  refine ⟨fun uuid => ?_, fun arg => ?_, fun i arg => hasked before _, ?_, ?_, ?_, ?_, ?_⟩
  · rw [hasked, find_keeping]
  · rw [hasked, resolve_keeping]
  · intro later hquiet q hq
    rw [hasked, hasked, hquiet, looksUp_keeping _ _ now hq]
  · intro l w hcall
    refine ⟨by rw [hasked, fetch_keeping hcall]; rfl, fun later => ?_⟩
    have hlists : lists (before ++ .fetch :: later) =
        lists before ++ k.ofListing l :: (listings b k w later).1 := listings_fetch hcall later
    refine ⟨hlists, fun arg => ?_⟩
    rw [hasked, consult_keeping]
    have hget : (lists (before ++ .fetch :: later))[(lists before).length]? =
        some (k.ofListing l) := by
      rw [hlists, List.getElem?_append_right (Nat.le_refl _), Nat.sub_self]
      rfl
    rw [hget]
    rfl
  · intro failure? w hcall hfailure
    have hnone : ((failure?.bind Except.toOption).map k.ofListing).toList = [] := by
      rcases failure? with _ | _ | l
      · rfl
      · rfl
      · exact absurd rfl (hfailure l)
    have hworld : (p.answers b before).2.world = now := by rw [answers_eq_keeping]; rfl
    refine ⟨by rw [hasked, fetch_keeping hcall], fun later => ⟨?_, ?_⟩⟩
    · simp only [lists, listings_fetch hcall, hnone, List.nil_append]
    · exact answers_of_failed (hworld ▸ hcall) hfailure later
  · intro arg uuid hanswer
    simp only [hasked, Option.some.injEq] at hanswer
    obtain ⟨items, hlast, hbest⟩ := mem_best_of_answer hanswer
    obtain ⟨item, hitem, huuid⟩ := Candidates.find_of_mem_best hbest
    refine ⟨items, item, hlast, hitem, huuid, fun later hquiet => ?_⟩
    rw [hasked, hquiet, find_keeping]
    simp only [lists] at hlast
    simp only [lists, hlast, hitem]
  · intro a view policy raw display l w hshown hraw hcall
    obtain ⟨known, args, hresolve, hargs, hfinds, hshows⟩ :=
      Action.resolve_of_shown (p := policy) hshown hraw hcall
    refine ⟨known, args, hresolve, Dispatch.run_of_found (c := a.command policy) hresolve hargs,
      fun q hreach => ⟨fun arg harg uuids hchosen uuid huuid => ?_,
        fun r hr herror => Action.shown_of_gathered hfinds hshows hreach hr herror⟩⟩
    exact Dispatch.exists_of_argument (c := a.command policy) hreach
      ((hfinds ⟨arg, uuid, none⟩ rfl).mpr ⟨harg, uuids, hchosen, huuid⟩)

/-- A network is listed, then the service fails, and then it lists another network of the same name. -/
theorem answers_from_listings_twice :
    let b : Backend (Option (List Network)) := ⟨fun c _ s => ⟨0, s, fun _ s =>
      (match c, s with
        | .networks, some l => .answer l
        | .networks, none => .failure (.status 503 "down")
        | _, _ => .crash, s)⟩⟩
    let early : Network := ⟨"n-1", "lan", "private", "fi-hel1"⟩
    let late : Network := ⟨"n-2", "lan", "private", "fi-hel1"⟩
    let p : Provider _ .network := { world := { state := some [early] } }
    let failing : List (Request (Option (List Network))) := [.fetch, .alter fun _ => none]
    let repaired := failing ++ [.fetch, .alter fun _ => some [late]]
    let asked qs q : Option (Answer .network) := (p.answers b (qs ++ [q])).1[qs.length]?
    asked [] (.find "n-1") = some (.found (.error (.uninitialized "network"))) ∧
    asked failing .fetch = some (.fetched (some (.error (.status 503 "down")))) ∧
    asked repaired (.resolve "lan") = asked failing (.resolve "lan") ∧
    asked repaired (.find "n-1") = some (.found (.ok early)) ∧
    asked repaired .fetch = some (.fetched (some (.ok 1))) ∧
    asked (repaired ++ [.fetch]) (.consult 1 "lan") =
      some (.consulted (some (.among .network [late] "lan"))) ∧
    ∃ results q, Dispatch.run b (Action.networkShow.command (.ofConfig 1 1 {})) ["lan"]
        { state := some [late] } {} = .finished results q ∧
      ∃ r ∈ results, r.argument = ⟨"lan", "n-2", none⟩ ∧
        r.outcome = .ok (.details (Action.networkDetails late)) := by
  intro b early late p failing repaired asked
  obtain ⟨hfind, -⟩ := answers_from_listings b .network { state := some [early] } [] []
  obtain ⟨-, hresolve, -, hquiet, -, hfailed, hresolved, -⟩ :=
    answers_from_listings b .network { state := some [early] } failing []
  obtain ⟨-, -, -, -, hfetch, -⟩ :=
    answers_from_listings b .network { state := some [early] } repaired []
  obtain ⟨-, -, -, -, -, -, -, hshown⟩ :=
    answers_from_listings b .network { state := some [late] } [] []
  have hlists : (listings b .network { state := some [early] } repaired).1 =
      (listings b .network { state := some [early] } failing).1 := rfl
  have honly : (Candidates.among .network [early] "lan").only = .ok "n-1" := by decide +kernel
  refine ⟨hfind "n-1", ?_, hquiet _ hlists _ rfl, ?_, ?_, ?_, ?_⟩
  · exact (hfailed _ _ rfl (by simp)).1
  · have hanswer : asked failing (.resolve "lan") = some (.resolved (.ok "n-1")) := by
      rw [← honly]
      exact hresolve "lan"
    obtain ⟨items, item, hlast, hitem, -, hlater⟩ := hresolved "lan" "n-1" (.inl hanswer)
    obtain rfl : [early] = items := Option.some.inj hlast
    obtain rfl : early = item := Option.some.inj hitem
    exact hlater _ hlists
  · exact (hfetch [late] _ rfl).1
  · exact ((hfetch [late] _ rfl).2 []).2 "lan"
  · obtain ⟨known, args, -, ⟨q, hreach, hrun⟩, hall⟩ :=
      hshown .networkShow _ (.ofConfig 1 1 {}) ["lan"] {} [late] _ rfl (List.cons_ne_nil _ _) rfl
    obtain ⟨hgiven, hoks⟩ := hall q hreach
    have hchosen : Action.networkShow.mode.chosen (.among .network [late] "lan") =
        .ok ["n-2"] := by decide +kernel
    obtain ⟨r, hr, hargument⟩ := hgiven "lan" (List.mem_singleton_self _) _ hchosen "n-2"
      (List.mem_singleton_self _)
    obtain ⟨item, hitem, -, houtcome⟩ := hoks r hr (by rw [hargument])
    rw [hargument] at hitem
    obtain rfl : late = item := Option.some.inj hitem
    exact ⟨_, q, hrun, r, hr, hargument, houtcome⟩

end Provider

end Muster
