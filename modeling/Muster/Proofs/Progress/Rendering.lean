import Muster.Progress.Log

/-! What one rendering of a log does: the lists it leaves, whether or not every write succeeds, and the
pieces of text that it writes if they do. -/

namespace Muster.Progress

theorem Sink.write_text {s s' : Sink} {text : String} (h : s.write text = (s', true)) :
    s'.text.toList = s.text.toList ++ text.toList := by
  unfold Sink.write at h
  split at h
  · cases h
    simp
  · split at h
    · cases h
      simp
    · simp at h

theorem toList_intercalate_empty (texts : List String) :
    ("".intercalate texts).toList = texts.flatMap String.toList := by
  induction texts with
  | nil => simp
  | cons t ts ih =>
    cases ts with
    | nil => simp
    | cons u us => simpa [String.toList_intercalate] using ih

theorem intercalate_empty_cons (text : String) (texts : List String) :
    "".intercalate (text :: texts) = text ++ "".intercalate texts := by
  rw [← String.toList_inj, String.toList_append, toList_intercalate_empty,
    toList_intercalate_empty, List.flatMap_cons]

theorem Sink.writeAll_text {texts : List String} {s s' : Sink}
    (h : Sink.writer.writeAll texts s = (s', true)) :
    s'.text.toList = s.text.toList ++ texts.flatMap String.toList := by
  induction texts generalizing s with
  | nil =>
    cases h
    simp
  | cons text texts ih =>
    rw [Writer.writeAll] at h
    split at h
    · simp at h
    · rename_i s₁ hwrite
      rw [ih h, Sink.write_text hwrite, List.flatMap_cons, List.append_assoc]

theorem Sink.write_of_room {s : Sink} (h : s.room? = none) (text : String) :
    s.write text = ({ s with text := s.text ++ text }, true) := by
  simp [write, h]

theorem Sink.writeAll_of_room {s : Sink} (h : s.room? = none) (texts : List String) :
    ∃ s', Sink.writer.writeAll texts s = (s', true) ∧ s'.room? = none := by
  induction texts generalizing s with
  | nil => exact ⟨s, rfl, h⟩
  | cons text texts ih =>
    have hwrite : Sink.writer.write s text = ({ s with text := s.text ++ text }, true) :=
      Sink.write_of_room h text
    rw [Writer.writeAll, hwrite]
    exact ih h

/-- A stretch of what a rendering writes: rows taken back, the last lines of an entry, or the line of
an entry that has not ended. -/
inductive Piece where
  | taken (rows : Nat)
  | final (entry : Nat) (text : String)
  | active (entry : Nat) (text : String)
  deriving DecidableEq, Repr

namespace Piece

def text : Piece → String
  | .taken rows => Log.takeBack rows
  | .final _ text => text
  | .active _ text => text

def final? : Piece → Option Nat
  | .final entry _ => some entry
  | _ => none

end Piece

namespace Log

def ended (entries : List Entry) (log : Log) : List Nat :=
  log.inProgress.filter fun i => (entries.getD i default).isDone

def moved (entries : List Entry) (log : Log) : Log :=
  { log with done := log.done ++ log.ended entries }.shift entries

def pieces (c : Config) (columns now : Nat) (entries : List Entry) (log : Log) : List Piece :=
  let width := c.lineWidth columns
  let entry (i : Nat) := entries.getD i default
  let finals := (log.ended entries).map fun i =>
    Piece.final i ((entry i).finalLines c.palette width now)
  let actives := ((log.moved entries).shown c entries).map fun i =>
    Piece.active i ((entry i).line c.palette width now)
  if c.appendOnly then finals else .taken (log.rows width) :: (finals ++ actives)

section Lists

variable {ω : Type} (w : Writer ω) (c : Config) (columns width now : Nat) (entries : List Entry)

/-- The entries whose last lines are written, up to the first that fails. -/
def settled : List Nat → ω → List Nat
  | [], _ => []
  | i :: is, out =>
    match w.writeAll ((entries.getD i default).finalParts c.palette width now) out with
    | (_, false) => []
    | (out, true) => i :: settled is out

/-- The entries that a rendering counts as done and leaves in progress: it has written their last lines,
but not those of an entry behind them. -/
def torn (log : Log) (out : ω) : List Nat :=
  let width := c.lineWidth columns
  match if c.appendOnly then (out, true) else w.writeAll (takeBackParts (log.rows width)) out with
  | (_, false) => []
  | (out, true) =>
    let written := settled w c width now entries (log.ended entries) out
    if written = log.ended entries then [] else written

theorem settled_prefix (ids : List Nat) (out : ω) :
    settled w c width now entries ids out <+: ids := by
  induction ids generalizing out with
  | nil => exact List.prefix_refl []
  | cons i is ih =>
    rw [settled]
    rcases w.writeAll ((entries.getD i default).finalParts c.palette width now) out
      with ⟨out, _ | _⟩
    · exact List.nil_prefix
    · exact List.prefix_cons_inj i |>.mpr (ih out)

theorem settleTo_eq (ids : List Nat) (log : Log) (out : ω) :
    let r := settleTo w c width now entries ids log out
    let written := settled w c width now entries ids out
    r.1 = { log with done := log.done ++ written } ∧ (r.2.2 = true ↔ written = ids) := by
  induction ids generalizing log out with
  | nil => simp [settleTo, settled]
  | cons i is ih =>
    simp only [settleTo, settled]
    rcases w.writeAll ((entries.getD i default).finalParts c.palette width now) out
      with ⟨out, _ | _⟩
    · simp
    · obtain ⟨hlog, hall⟩ := ih { log with done := log.done ++ [i] } out
      exact ⟨by simp [hlog], by simpa using hall⟩

/-- A rendering that fails before the last of the last lines is written moves nothing else. Any other moves
every entry as it should, whether or not it fails later on. Only a live one that succeeds changes what is
known of the lines below. -/
theorem renderTo_cases (log : Log) (out : ω) :
    let r := log.renderTo w c columns now entries out
    let torn := log.torn w c columns now entries out
    (r.2.2 = false ∧ r.1 = { log with done := log.done ++ torn } ∧ torn <+: log.ended entries) ∨
    (torn = [] ∧ (r.1 = log.moved entries ∧ (r.2.2 = true → c.appendOnly = true) ∨
      c.appendOnly = false ∧ r.1 = { log.moved entries with
        height := ((log.moved entries).shown c entries).length
        lastWidth := c.lineWidth columns })) := by
  have hended : log.inProgress.filter (fun i => (entries.getD i default).isDone) =
      log.ended entries := rfl
  simp only [renderTo, torn, hended]
  rcases if c.appendOnly then (out, true)
    else w.writeAll (takeBackParts (log.rows (c.lineWidth columns))) out with ⟨out, _ | _⟩
  · exact .inl ⟨rfl, by simp, List.nil_prefix⟩
  obtain ⟨hlog, hall⟩ := settleTo_eq w c (c.lineWidth columns) now entries (log.ended entries) log out
  have hwritten := settled_prefix w c (c.lineWidth columns) now entries (log.ended entries) out
  simp only
  rcases hr : settleTo w c (c.lineWidth columns) now entries (log.ended entries) log out
    with ⟨log', out', _ | _⟩
  · simp only [hr, Bool.false_eq_true, false_iff] at hlog hall
    exact .inl ⟨rfl, by simpa only [if_neg hall] using hlog, by simpa only [if_neg hall] using hwritten⟩
  · simp only [hr, true_iff] at hlog hall
    have hshift : log'.shift entries = log.moved entries := by rw [hlog, hall, moved]
    refine .inr ⟨if_pos hall, ?_⟩
    simp only [hshift]
    cases hc : c.appendOnly with
    | true => exact .inl ⟨rfl, fun _ => rfl⟩
    | false =>
      simp only [Bool.false_eq_true, if_false]
      rcases w.writeAll _ out' with ⟨out₁, _ | _⟩
      · exact .inl ⟨rfl, fun hwritten => absurd hwritten Bool.false_ne_true⟩
      simp only
      rcases w.flush out₁ with ⟨out₂, _ | _⟩
      · exact .inl ⟨rfl, fun hwritten => absurd hwritten Bool.false_ne_true⟩
      · exact .inr ⟨trivial, rfl⟩

end Lists

theorem settleTo_text {c : Config} {width now : Nat} {entries : List Entry} {ids : List Nat}
    {log log' : Log} {sink sink' : Sink}
    (h : settleTo Sink.writer c width now entries ids log sink = (log', sink', true)) :
    sink'.text.toList = sink.text.toList ++ ids.flatMap fun i =>
      ((entries.getD i default).finalLines c.palette width now).toList := by
  induction ids generalizing log sink with
  | nil =>
    cases h
    simp
  | cons i is ih =>
    simp only [settleTo] at h
    split at h
    · simp at h
    · rename_i sink₁ hwrite
      rw [ih h, Sink.writeAll_text hwrite, List.flatMap_cons, Entry.finalLines,
        toList_intercalate_empty, List.append_assoc]

/-- A rendering that succeeds moves every entry as it should and writes its pieces. Only a live one
changes what is known of the lines below. -/
theorem render_eq {c : Config} {columns now : Nat} {entries : List Entry} {log log' : Log}
    {sink sink' : Sink} (h : log.render c columns now entries sink = (log', sink', true)) :
    log' = (if c.appendOnly then log.moved entries else
      { log.moved entries with
        height := ((log.moved entries).shown c entries).length
        lastWidth := c.lineWidth columns }) ∧
    sink'.text.toList =
      sink.text.toList ++ (log.pieces c columns now entries).flatMap (·.text.toList) := by
  simp only [render, renderTo] at h
  split at h
  · simp at h
  rename_i sink₁ htaken
  split at h
  · simp at h
  rename_i log₂ sink₂ hsettle
  have htext := settleTo_text hsettle
  obtain ⟨hlog, hall⟩ := settleTo_eq Sink.writer c (c.lineWidth columns) now entries
    (log.ended entries) log sink₁
  rw [ended, hsettle] at hlog hall
  rw [hall.mp rfl] at hlog
  subst hlog
  change (if c.appendOnly = true then (log.moved entries, sink₂, true) else _) = _ at h
  cases hc : c.appendOnly with
  | true =>
    simp only [hc, if_true, Prod.mk.injEq] at htaken h
    obtain ⟨rfl, _⟩ := htaken
    obtain ⟨rfl, rfl, _⟩ := h
    simp [pieces, hc, htext, ended, Piece.text, List.flatMap_map]
  | false =>
    simp only [hc, Bool.false_eq_true, if_false] at htaken h
    split at h
    · simp at h
    rename_i sink₃ hactive
    simp only [Sink.writer, Prod.mk.injEq] at h
    obtain ⟨rfl, rfl, _⟩ := h
    refine ⟨by simp [moved, ended], ?_⟩
    have htaken := Sink.writeAll_text htaken
    have hactive := Sink.writeAll_text hactive
    simp only [hactive, htext, htaken, takeBack, toList_intercalate_empty, pieces, hc,
      Bool.false_eq_true, if_false, List.flatMap_cons, List.flatMap_append, List.flatMap_map,
      Piece.text, List.append_assoc, ended, moved]

theorem settleTo_of_room (c : Config) (width now : Nat) (entries : List Entry) (ids : List Nat)
    (log : Log) {sink : Sink} (h : sink.room? = none) :
    ∃ log' sink', settleTo Sink.writer c width now entries ids log sink = (log', sink', true) ∧
      sink'.room? = none := by
  induction ids generalizing log sink with
  | nil => exact ⟨log, sink, rfl, h⟩
  | cons i is ih =>
    obtain ⟨sink₁, hwritten, h₁⟩ := Sink.writeAll_of_room h
      ((entries.getD i default).finalParts c.palette width now)
    simp only [settleTo, hwritten]
    exact ih _ h₁

/-- With room for all that is written, no rendering fails. -/
theorem render_of_room (c : Config) (columns now : Nat) (entries : List Entry) (log : Log)
    {sink : Sink} (h : sink.room? = none) :
    ∃ log' sink', log.render c columns now entries sink = (log', sink', true) ∧
      sink'.room? = none := by
  obtain ⟨sink₁, htaken, h₁⟩ : ∃ sink₁, (if c.appendOnly then (sink, true) else
      Sink.writer.writeAll (takeBackParts (log.rows (c.lineWidth columns))) sink) =
        (sink₁, true) ∧ sink₁.room? = none := by
    by_cases hc : c.appendOnly = true
    · exact ⟨sink, by rw [if_pos hc], h⟩
    · rw [if_neg hc]
      exact Sink.writeAll_of_room h _
  obtain ⟨log₂, sink₂, hsettle, h₂⟩ := settleTo_of_room c (c.lineWidth columns) now entries
    (log.inProgress.filter fun i => (entries.getD i default).isDone) log h₁
  obtain ⟨sink₃, hactive, h₃⟩ := Sink.writeAll_of_room h₂ (((log₂.shift entries).shown c entries).map
    fun i => (entries.getD i default).line c.palette (c.lineWidth columns) now)
  simp only [render, renderTo, htaken, hsettle, hactive]
  by_cases hc : c.appendOnly = true
  · exact ⟨_, sink₂, by rw [if_pos hc]; rfl, h₂⟩
  · exact ⟨_, sink₃, by rw [if_neg hc]; rfl, h₃⟩

@[simp] theorem moved_pending (entries : List Entry) (log : Log) :
    (log.moved entries).pending =
      log.pending.filter fun i => !(entries.getD i default).isStarted := rfl

@[simp] theorem moved_inProgress (entries : List Entry) (log : Log) :
    (log.moved entries).inProgress =
      (log.inProgress.filter fun i => !(entries.getD i default).isDone) ++
        log.pending.filter fun i => (entries.getD i default).isStarted := rfl

@[simp] theorem moved_done (entries : List Entry) (log : Log) :
    (log.moved entries).done = log.done ++ log.ended entries := rfl

end Log

end Muster.Progress
