import Muster.Proofs.Dispatch.Results
import Muster.Proofs.Program.Course
import Muster.Proofs.Queue.Printed

/-! What the log shows of an action that fails and leaves it to its task to tell. Main statement: its last
lines name the command and the argument, say that they failed and why, and are those of a failure, unless
the action had ended its entry before. -/

namespace Muster

open Progress (Entry Piece)

variable {σ : Type}

theorem Progress.Entry.apply_finish_of_isDone {e : Entry} (h : e.isDone = true) (time : Nat)
    (o : Progress.Outcome) : e.apply time (.finish o) = e := by
  obtain ⟨message, details, lead, stage⟩ := e
  cases stage with
  | ended since first => rfl
  | _ => simp [isDone, Stage.outcome?] at h

theorem Progress.Entry.finalLines_of_outcome {e : Entry} {o : Progress.Outcome}
    (h : e.stage.outcome? = some o) (palette : Progress.Palette) (width now : Nat) :
    ∃ rest, e.finalLines palette width now =
      palette.choose (Progress.Stage.ended 0 o).colour ++ rest := by
  obtain ⟨message, details, lead, stage⟩ := e
  cases stage with
  | ended since first =>
    cases h
    have hcolour : (Progress.Stage.ended since o).colour = (Progress.Stage.ended 0 o).colour := by
      cases o <;> rfl
    rw [finalLines, finalParts, Progress.intercalate_empty_cons, line, Progress.Palette.paint, hcolour]
    simp only [String.append_assoc]
    exact ⟨_, rfl⟩
  | _ => simp [Progress.Stage.outcome?] at h

theorem finishes_append (notes notes' : List Note) :
    finishes (notes ++ notes') = finishes notes ++ finishes notes' := List.filterMap_append

theorem shown_append (notes notes' : List Note) :
    shown (notes ++ notes') = notes'.foldl Note.shown (shown notes) := List.foldl_append

theorem finishes_ne_nil {notes : List Note} (h : (shown notes).isDone = true) :
    finishes notes ≠ [] := by
  intro hnone
  rw [Entry.isDone, outcome?_shown, hnone] at h
  exact absurd h (by decide)

/-- Once an entry has ended, its task does not change its outcome. -/
theorem outcome?_of_shown {made later : List Note} (h : (shown made).isDone = true) :
    (shown (made ++ later)).stage.outcome? = (shown made).stage.outcome? := by
  rw [outcome?_shown, outcome?_shown, finishes_append]
  exact List.head?_append_of_ne_nil _ (finishes_ne_nil h)

namespace Dispatch

variable {c : Command} {known : c.mode.Known} {arg : Resolved} {notes made : List Note}
  {outcome : Outcome} {err : CommandError}

/-- Among the notes of its task, the action did what the given ones tell and came to an outcome. -/
def Acted (c : Command) (known : c.mode.Known) (arg : Resolved) (notes made : List Note)
    (outcome : Outcome) : Prop :=
  let message : Effect := .change (.message (label c.name arg))
  let invoke : Effect := .invoke arg.value
  ∃ (t₁ t₂ t₃ t₄ : Nat) (later : List Note),
    notes = .tried t₁ message :: .heard t₂ message () :: .tried t₃ invoke ::
      .heard t₄ invoke () :: (made ++ later) ∧
    (c.action known arg.value).Takes (begun c arg) made (.done outcome)

theorem Ran.acted (h : Ran c known arg notes made (some outcome)) :
    Acted c known arg notes made outcome := by
  obtain ⟨t₁, t₂, t₃, t₄, later, hnotes, hmade, -⟩ := h
  exact ⟨t₁, t₂, t₃, t₄, later, hnotes, hmade.takes⟩

theorem Acted.report {o? : Option Outcome} (h : Acted c known arg notes made outcome)
    (herror : arg.error? = none) (htask : (task c known arg).Comes { message := "" } notes o?) :
    ∃ first later, notes = first ++ made ++ later ∧ finishes first = [] ∧
      (report (label c.name arg) outcome).Comes (shown (first ++ made)) later o? := by
  rw [task_of_value herror] at htask
  obtain ⟨t₁, t₂, t₃, t₄, later, rfl, hmade⟩ := h
  cases htask with
  | act _ hinvoke =>
    cases hinvoke with
    | act _ haction =>
      refine ⟨_ :: _ :: _ :: [_], later, rfl, rfl, ?_⟩
      rw [shown_append]
      exact (hmade.bind _).comes_rest haction

theorem report_of_error (message : String) (herr : err.isHandled = false) :
    report message (.error err) =
      .act (.change (.message (message ++ ": failed"))) fun _ =>
      .act (.change (.details err.message "error: ")) fun _ =>
      .act (.change (.finish .failed)) fun _ => .done (.error (.handled err)) := by
  rw [← CommandError.markHandled_of_not_isHandled herr]
  simp only [report, herr]
  rfl

theorem comes_report_of_error {message : String} {entry : Entry} {later : List Note}
    {o? : Option Outcome} (herr : err.isHandled = false)
    (h : (report message (.error err)).Comes entry later o?) :
    o? = some (.error (.handled err)) ∧ ∃ (before : List Note) (time time' : Nat),
      later = before ++ [.tried time (.change (.finish .failed)),
        .heard time' (.change (.finish .failed)) ()] ∧
      finishes before = [] ∧
      before.foldl Note.shown entry =
        { entry with message := message ++ ": failed", details := err.message, lead := "error: " } := by
  rw [report_of_error message herr] at h
  obtain ⟨_, _, _, _, rfl, -, hdetails⟩ := h.of_act rfl
  obtain ⟨_, _, _, _, rfl, -, hfinish⟩ := hdetails.of_act rfl
  obtain ⟨_, _, _, _, rfl, -, hend⟩ := hfinish.of_act rfl
  obtain ⟨rfl, rfl⟩ := hend.of_done
  exact ⟨rfl, _ :: _ :: _ :: [_], _, _, rfl, rfl, rfl⟩

/-- A task whose action failed does not crash, and its notes end with the last of what it tells of that. -/
theorem notes_of_failed {o? : Option Outcome} (herror : arg.error? = none)
    (herr : err.isHandled = false) (hacted : Acted c known arg notes made (.error err))
    (htask : (task c known arg).Comes { message := "" } notes o?) :
    o? = some (.error (.handled err)) ∧
      ∃ (before : List Note) (stage : Progress.Stage) (time time' : Nat),
      notes = before ++ [.tried time (.change (.finish .failed)),
        .heard time' (.change (.finish .failed)) ()] ∧
      finishes before = finishes made ∧
      shown before = ⟨label c.name arg ++ ": failed", err.message, "error: ", stage⟩ := by
  obtain ⟨first, later, rfl, hfirst, hreport⟩ := hacted.report herror htask
  obtain ⟨rfl, before, time, time', rfl, hnone, hshown⟩ := comes_report_of_error herr hreport
  refine ⟨rfl, first ++ made ++ before, (shown (first ++ made)).stage, time, time',
    (List.append_assoc _ _ _).symm, ?_, ?_⟩
  · rw [finishes_append, finishes_append, hfirst, hnone, List.append_nil, List.nil_append]
  · rw [shown_append, hshown]

/-- The entry in the end. If the action had not ended it, it had not ended before. -/
theorem shown_of_failed {before : List Note} {stage : Progress.Stage} {time time' : Nat}
    {message details lead : String}
    (hnotes : notes = before ++ [.tried time (.change (.finish .failed)),
      .heard time' (.change (.finish .failed)) ()])
    (hfinishes : finishes before = finishes made)
    (hshown : shown before = ⟨message, details, lead, stage⟩) :
    (∃ stage, shown notes = ⟨message, details, lead, stage⟩) ∧
    (shown notes).stage.outcome? = some ((finishes made).head?.getD .failed) ∧
    (finishes made = [] → ∀ made', made' <+: notes → (shown made').isDone = true → made' = notes) := by
  refine ⟨⟨stage.finish time' .failed, ?_⟩, ?_, fun hnone made' hle hdone => ?_⟩
  · rw [hnotes, shown_append, hshown]
    rfl
  · rw [outcome?_shown, hnotes, finishes_append, hfinishes]
    cases finishes made with
    | nil => rfl
    | cons => rfl
  · have hsplit : notes = (before ++ [.tried time (.change (.finish .failed))]) ++
        [.heard time' (.change (.finish .failed)) ()] := by rw [hnotes, List.append_assoc]; rfl
    rcases List.prefix_concat_iff.mp (hsplit ▸ hle) with hall | ⟨later, hlater⟩
    · exact hall.trans hsplit.symm
    -- short of the last note nothing has ended the entry
    · have hfinished : finishes (before ++ [.tried time (.change (.finish .failed))]) = [] := by
        rw [finishes_append, hfinishes, hnone]
        rfl
      rw [← hlater, finishes_append] at hfinished
      exact absurd (List.append_eq_nil_iff.mp hfinished).1 (finishes_ne_nil hdone)

section Returned

variable {b : Backend σ} {args : List Resolved} {w : World σ} {display : Display}
  {q : Queue σ Outcome} {job : Nat}

theorem mem_gathered
    (h : Running.Reachable b (.start c.limit (args.map (task c known)) w display) ⟨.returned, q⟩)
    (harg : args[job]? = some arg) (hslot : q.slots[job]? = some (.ended (some outcome))) :
    ⟨job, arg, outcome⟩ ∈ gather args q.results := by
  have hjob := (List.getElem?_eq_some_iff.mp harg).1
  have hmem := (perm_of_returned h).mem_iff.mpr (List.mem_range.mpr hjob)
  obtain ⟨r, hr, rfl⟩ := List.mem_map.mp hmem
  have hargument : r.argument = arg := Option.some.inj ((argument_of_gathered h hr).symm.trans harg)
  rcases slot_of_gathered h hr with hended | ⟨hended, -⟩
  · have houtcome : r.outcome = outcome := by simpa [hslot] using hended.symm
    rwa [← hargument, ← houtcome]
  · simp [hslot] at hended

theorem crashed_or_acted {notes : List (Nat × Note)}
    (h : Running.Runs b (.start c.limit (args.map (task c known)) w display) notes ⟨.returned, q⟩)
    (harg : args[job]? = some arg) (herror : arg.error? = none) :
    q.slots[job]? = some (.ended none) ∨
      ∃ made outcome, Acted c known arg (own job notes) made outcome := by
  obtain ⟨made, outcome?, hran, hslot⟩ := ran_of_returned h harg herror
  cases outcome? with
  | none => exact .inl hslot
  | some outcome => exact .inr ⟨made, outcome, hran.acted⟩

/-- The task of an action that failed, its result and its entry, whatever the order of the tasks. -/
theorem entry_of_failed {notes : List (Nat × Note)}
    (h : Running.Runs b (.start c.limit (args.map (task c known)) w display) notes ⟨.returned, q⟩)
    (harg : args[job]? = some arg) (herror : arg.error? = none) (herr : err.isHandled = false)
    (hacted : Acted c known arg (own job notes) made (.error err)) :
    q.slots[job]? = some (.ended (some (.error (.handled err)))) ∧
    q.world.entries[w.entries.length + job]? = some (shown (own job notes)) ∧
    (∃ stage, shown (own job notes) =
      ⟨label c.name arg ++ ": failed", err.message, "error: ", stage⟩) ∧
    (shown (own job notes)).stage.outcome? = some ((finishes made).head?.getD .failed) ∧
    (finishes made = [] → ∀ made', made' <+: own job notes → (shown made').isDone = true →
      made' = own job notes) := by
  have hnoted : q.Noted (args.map (task c known)) w notes := Queue.Noted.of_runs h
  obtain ⟨outcome?, hslot, hfollows⟩ := follows_of_returned h harg
  obtain ⟨e, he, time, rfl⟩ := hnoted.shows job _ hslot
  obtain ⟨rfl, before, stage, t, t', hnotes, hfinishes, hshown⟩ :=
    notes_of_failed herror herr hacted hfollows.comes
  obtain ⟨hfinal, houtcome, hwhole⟩ := shown_of_failed hnotes hfinishes hshown
  have hdone : (shown (own job notes)).isDone = true := by
    rw [Entry.isDone, houtcome]
    rfl
  rw [Entry.apply_finish_of_isDone hdone] at he
  exact ⟨hslot, he, hfinal, houtcome, hwhole⟩

theorem shown_of_printed {notes made : List Note} {e : Entry} (hdone : (shown notes).isDone = true)
    (h : Running.Shown q job notes made e) : e = shown made := by
  rcases h with heq | ⟨rfl, a?, -, time, heq⟩
  · exact heq
  · rw [heq, Entry.apply_finish_of_isDone hdone]

/-- The last lines that the log has written for the entry of an action that failed. -/
theorem printed_of_failed {notes : List (Nat × Note)} (hlog : display.log = {})
    (hroom : display.sink.room? = none)
    (h : Running.Runs b (.start c.limit (args.map (task c known)) w display) notes ⟨.returned, q⟩)
    (harg : args[job]? = some arg) (hdone : (shown (own job notes)).isDone = true) :
    ∃ pieces : List Piece,
      q.display.sink.text.toList =
        display.sink.text.toList ++ pieces.flatMap (·.text.toList) ∧
      (pieces.filterMap Piece.final?).count (w.entries.length + job) = 1 ∧
      ∀ text, Piece.final (w.entries.length + job) text ∈ pieces →
        ∃ (made : List Note) (now : Nat), made <+: own job notes ∧ (shown made).isDone = true ∧
          text = (shown made).finalLines display.config.palette
            (display.config.lineWidth display.columns) now := by
  obtain ⟨pieces, hprints, hpictures⟩ := Running.printed_of_runs h hroom
  obtain ⟨hperm, hnodup⟩ := Running.done_of_returned hlog hroom h.reachable
  have hlist : q.display.log.done = pieces.filterMap Piece.final? := by
    have hempty : (Queue.ofTasks c.limit (args.map (task c known)) w display).display.log.done = [] :=
      congrArg Progress.Log.done hlog
    rw [hprints.done, hempty, List.nil_append]
  refine ⟨pieces, hprints.text, ?_, fun text hmem => ?_⟩
  · have hjob := (List.getElem?_eq_some_iff.mp harg).1
    rw [← hlist]
    refine List.count_eq_one_of_mem (hperm.nodup_iff.mpr hnodup) (hperm.mem_iff.mpr ?_)
    refine List.mem_map.mpr ⟨job, List.mem_range.mpr ?_, rfl⟩
    rwa [List.length_map]
  · obtain ⟨made, e, now, hle, hshown, hended, htext⟩ := hpictures job text hmem
    obtain rfl := shown_of_printed hdone hshown
    exact ⟨made, now, hle, hended, htext⟩

end Returned

/-- A command whose arguments were looked up, in every order in which its tasks may run and with any way to
show its log, which is empty at first and has room for all that is written. A task crashes, or its action
comes to an outcome. If that is a failure not yet handled, the task ends with it, handled, and its entry
names the command and the argument, says that they failed and why, and keeps the first outcome that the
action gave it, or else is one that failed. The last lines of the entry are written once and show that
outcome; they show the entry as it is in the end if the action had not ended it. -/
theorem failures_told_of_resolved {b : Backend σ} {c : Command} {raw : List String}
    {world w : World σ} {display : Display} {known : c.mode.Known} {found : List Resolved}
    (hlog : display.log = {}) (hroom : display.sink.room? = none)
    (hresolve : runAlone b none (resolve raw c.mode) world = (some (.ok (known, found)), w)) :
    let args := orEmpty found
    let start := Running.start c.limit (args.map (task c known)) w display
    (∃ q, Running.Reachable b start ⟨.returned, q⟩ ∧
      run b c raw world display = .finished (gather args q.results) q) ∧
    ∀ (notes : List (Nat × Note)) (q : Queue σ Outcome),
      Running.Runs b start notes ⟨.returned, q⟩ →
      ∀ (job : Nat) (arg : Resolved), args[job]? = some arg → arg.error? = none →
        (q.slots[job]? = some (.ended none) ∨
          ∃ made outcome, Acted c known arg (own job notes) made outcome) ∧
        ∀ (made : List Note) (err : CommandError),
          Acted c known arg (own job notes) made (.error err) → err.isHandled = false →
          ⟨job, arg, .error (.handled err)⟩ ∈ gather args q.results ∧
          ∃ (e : Entry) (pieces : List Piece),
            q.world.entries[w.entries.length + job]? = some e ∧
            (∃ stage, e = ⟨label c.name arg ++ ": failed", err.message, "error: ", stage⟩) ∧
            e.stage.outcome? = some ((finishes made).head?.getD .failed) ∧
            q.display.sink.text.toList =
              display.sink.text.toList ++ pieces.flatMap (·.text.toList) ∧
            (pieces.filterMap Piece.final?).count (w.entries.length + job) = 1 ∧
            ∀ text, Piece.final (w.entries.length + job) text ∈ pieces →
              ∃ (e' : Entry) (now : Nat), e'.stage.outcome? = e.stage.outcome? ∧
                (finishes made = [] → e' = e) ∧
                text = e'.finalLines display.config.palette
                  (display.config.lineWidth display.columns) now := by
  intro args start
  refine ⟨run_of_resolved hresolve, fun notes q h job arg harg herror => ⟨?_, ?_⟩⟩
  · exact crashed_or_acted h harg herror
  · intro made err hacted herr
    obtain ⟨hslot, he, hfinal, houtcome, hwhole⟩ := entry_of_failed h harg herror herr hacted
    have hdone : (shown (own job notes)).isDone = true := by
      rw [Entry.isDone, houtcome]
      rfl
    obtain ⟨pieces, htext, hcount, hlines⟩ := printed_of_failed hlog hroom h harg hdone
    refine ⟨mem_gathered h.reachable harg hslot, _, pieces, he, hfinal, houtcome, htext, hcount,
      fun text hmem => ?_⟩
    obtain ⟨made', now, hle, hended, htext'⟩ := hlines text hmem
    refine ⟨shown made', now, ?_, fun hnone => ?_, htext'⟩
    · obtain ⟨later, hlater⟩ := hle
      rw [← hlater, outcome?_of_shown hended]
    · rw [hwhole hnone made' hle hended]

section Probe

/-- There is one network, and no other call is answered. -/
def probed : Backend Unit :=
  ⟨fun c _ s => ⟨0, s, fun _ s =>
    (match c with
      | .networks => .answer ([⟨"n", "n", "", ""⟩] : List Network)
      | _ => .crash, s)⟩⟩

/-- A command that makes a change to its entry before it fails. -/
def probe (told : Progress.Change) : Command :=
  ⟨"probe", 1, .only .network, fun _ _ => (Task.update "ok").bind fun _ =>
    (Program.change told).bind fun _ => .done (.error (.action "boom"))⟩

def probedArg : Resolved := ⟨"n", "n", none⟩

variable {told : Progress.Change} {known : (probe told).mode.Known} {w : World Unit}
  {display : Display} {notes : List (Nat × Note)} {q : Queue Unit Outcome}

theorem resolve_probe (told : Progress.Change) : ∃ known,
    runAlone probed none (resolve ["n"] (probe told).mode) { state := () } =
      (some (.ok (known, [probedArg])), { state := (), journal := [(0, .called .networks)] }) :=
  ⟨_, rfl⟩

theorem acted_probe
    (h : Running.Runs probed (.start 1 ([probedArg].map (task (probe told) known)) w display) notes
      ⟨.returned, q⟩) :
    ∃ made, Acted (probe told) known probedArg (own 0 notes) made (.error (.action "boom")) ∧
      finishes made = told.outcome?.toList := by
  have harg : [probedArg][0]? = some probedArg := rfl
  obtain ⟨made, outcome?, hran, -⟩ := ran_of_returned (c := probe told) h harg rfl
  obtain ⟨_, _, _, _, _, -, haction, -⟩ := id hran
  obtain ⟨_, _, _, _, rfl, -, htold⟩ := haction.of_act rfl
  obtain ⟨_, _, _, _, rfl, -, hend⟩ := htold.of_act rfl
  obtain ⟨rfl, rfl⟩ := hend.of_done
  refine ⟨_, hran.acted, ?_⟩
  cases told <;> rfl

/-- An action that fails after it has told of its start. -/
theorem failures_told_of_resolved_started :
    ∃ q, run probed (probe .start) ["n"] { state := () } {} =
        .finished (gather [probedArg] q.results) q ∧
      ⟨0, probedArg, .error (.handled (.action "boom"))⟩ ∈ gather [probedArg] q.results ∧
      ∃ stage, q.world.entries[0]? = some ⟨"probe n: failed", "boom", "error: ", stage⟩ ∧
        stage.outcome? = some .failed := by
  obtain ⟨known, hresolve⟩ := resolve_probe .start
  obtain ⟨⟨q, hreach, hrun⟩, hall⟩ :=
    @failures_told_of_resolved Unit probed (probe .start) _ _ _ {} known _ rfl rfl hresolve
  obtain ⟨notes, hruns⟩ := Running.Runs.of_reachable hreach
  obtain ⟨-, htold⟩ := hall notes q hruns 0 probedArg rfl rfl
  obtain ⟨made, hacted, hnone⟩ := acted_probe hruns
  obtain ⟨hresult, e, -, he, ⟨stage, rfl⟩, houtcome, -⟩ := htold made _ hacted rfl
  rw [hnone] at houtcome
  exact ⟨q, hrun, hresult, stage, he, houtcome⟩

/-- An action that fails after it has told of success. The entry says that it failed, but its outcome is
success, and whatever its last lines tell, they are in the colour of success, which for a failure is
another. -/
theorem success_kept_by_failure :
    ∃ q, run probed (probe (.finish .success)) ["n"] { state := () } {} =
        .finished (gather [probedArg] q.results) q ∧
      ⟨0, probedArg, .error (.handled (.action "boom"))⟩ ∈ gather [probedArg] q.results ∧
      (∃ stage, q.world.entries[0]? = some ⟨"probe n: failed", "boom", "error: ", stage⟩ ∧
        stage.outcome? = some .success) ∧
      ∃ pieces : List Piece, q.display.sink.text.toList = pieces.flatMap (·.text.toList) ∧
        (pieces.filterMap Piece.final?).count 0 = 1 ∧
        ∀ text, Piece.final 0 text ∈ pieces → ∃ rest, text = "\x1b[38;5;10m" ++ rest := by
  obtain ⟨known, hresolve⟩ := resolve_probe (.finish .success)
  obtain ⟨q, hreach, hrun⟩ := @run_of_found Unit probed (probe (.finish .success)) known _ {} _ _ _
    hresolve (by simp)
  obtain ⟨notes, hruns⟩ := Running.Runs.of_reachable hreach
  obtain ⟨made, hacted, hmade⟩ := acted_probe hruns
  obtain ⟨hslot, he, ⟨stage, hshown⟩, houtcome, -⟩ := entry_of_failed hruns rfl rfl rfl hacted
  rw [hmade] at houtcome
  have hdone : (shown (own 0 notes)).isDone = true := by
    rw [Entry.isDone, houtcome]
    rfl
  obtain ⟨pieces, htext, hcount, hlines⟩ :=
    printed_of_failed (c := probe (.finish .success)) rfl rfl hruns rfl hdone
  have hstage : stage.outcome? = some .success := by
    rw [hshown] at houtcome
    exact houtcome
  refine ⟨q, hrun, mem_gathered hreach rfl hslot, ⟨stage, hshown ▸ he, hstage⟩, pieces, htext, hcount,
    fun text hmem => ?_⟩
  obtain ⟨made', now, ⟨later, hlater⟩, hended, rfl⟩ := hlines text hmem
  have hkept : (shown made').stage.outcome? = some .success := by
    rw [← outcome?_of_shown hended, hlater, houtcome]
    rfl
  exact Progress.Entry.finalLines_of_outcome hkept .colours _ now

end Probe

end Dispatch

end Muster
