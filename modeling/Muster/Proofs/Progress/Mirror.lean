import Mathlib.Data.List.Induction
import Muster.Proofs.Progress.Screen

/-! Two logs that are used in the same way, one live and one append-only. Main statement: the screen of
the live one shows the lines that the other has written, and the lines of entries that have not ended
below them. -/

namespace Muster.Progress

open Terminal

namespace Config

def live (c : Config) : Config := { c with appendOnly := false }

def plain (c : Config) : Config := { c with appendOnly := true }

variable (c : Config)

@[simp] theorem live_appendOnly : c.live.appendOnly = false := rfl

@[simp] theorem live_palette : c.live.palette = c.palette := rfl

@[simp] theorem live_lineWidth (columns : Nat) : c.live.lineWidth columns = c.lineWidth columns := rfl

@[simp] theorem plain_appendOnly : c.plain.appendOnly = true := rfl

@[simp] theorem plain_palette : c.plain.palette = c.palette := rfl

@[simp] theorem plain_lineWidth (columns : Nat) :
    c.plain.lineWidth columns = c.lineWidth columns := rfl

theorem lineWidth_eq {c : Config} (hwidth : c.width ≠ 0) (columns : Nat) :
    c.lineWidth columns = c.width := by
  simp [lineWidth, hwidth]

end Config

theorem Log.live_shown (c : Config) (entries : List Entry) (log : Log) :
    log.shown c.live entries = log.shown c entries := rfl

namespace Board

/-- Texts are printable, and every elapsed time that is shown leaves room for itself. -/
def Tidy (c : Config) (now : Nat) (s : Step) (b : Board) : Prop :=
  match s with
  | .create message => IsPrintable message
  | .change _ (.message text) => IsPrintable text
  | .change _ (.details text lead) => IsPrintable text ∧ IsPrintable lead
  | .render _ => ∀ i ∈ b.log.ended b.entries ++ (b.log.moved b.entries).shown c b.entries,
      ((b.entries.getD i default).elapsed now).length < c.width
  | _ => True

instance (c : Config) (now : Nat) (s : Step) (b : Board) : Decidable (Tidy c now s b) :=
  match s with
  | .create message => inferInstanceAs (Decidable (Progress.IsPrintable message))
  | .change _ (.message text) => inferInstanceAs (Decidable (Progress.IsPrintable text))
  | .change _ (.details text lead) =>
    inferInstanceAs (Decidable (Progress.IsPrintable text ∧ Progress.IsPrintable lead))
  | .render _ => List.decidableBAll _ _
  | .add _ | .change _ .start | .change _ (.finish _) => .isTrue trivial

def IsPrintable (b : Board) : Prop := ∀ i, (b.entries.getD i default).IsPrintable

theorem isPrintable_create {b : Board} {message : String} (hb : b.IsPrintable)
    (hm : Progress.IsPrintable message) :
    ({ b with entries := b.entries ++ [{ message }] } : Board).IsPrintable := by
  intro i
  show ((b.entries ++ [({ message } : Entry)]).getD i default).IsPrintable
  by_cases hi : i < b.entries.length
  · rw [List.getD_append _ _ _ _ hi]
    exact hb i
  · rw [List.getD_append_right _ _ _ _ (by omega)]
    by_cases h0 : i - b.entries.length = 0
    · rw [h0, List.getD_cons_zero]
      exact ⟨hm, Entry.IsPrintable.default.details, Entry.IsPrintable.default.lead⟩
    · rw [List.getD_eq_default _ _ (by simp only [List.length_singleton]; omega)]
      exact .default

theorem isPrintable_change {b : Board} {entry now : Nat} {change : Change} (hb : b.IsPrintable)
    (hc : ∀ e : Entry, e.IsPrintable → (e.apply now change).IsPrintable) :
    ({ b with entries := b.entries.modify entry fun e => e.apply now change } :
      Board).IsPrintable := by
  intro i
  have h := hb i
  by_cases hi : i < b.entries.length
  · rw [List.getD_eq_getElem _ _ hi] at h
    rw [List.getD_eq_getElem _ _ (by simpa using hi)]
    simp only [List.getElem_modify]
    split
    · exact hc _ h
    · exact h
  · rw [List.getD_eq_default _ _ (by simp only [List.length_modify]; omega)]
    exact .default

theorem isPrintable_take {c c' : Config} {now : Nat} {s : Step} {b b' : Board}
    (hb : b.IsPrintable) (hs : Tidy c now s b) (h : b.take c' now s = some b') :
    b'.IsPrintable := by
  cases s with
  | create message =>
    cases h
    exact isPrintable_create hb hs
  | add ids =>
    cases h
    exact hb
  | render columns =>
    simpa only [IsPrintable, (take_render h).1] using hb
  | change entry change =>
    cases h
    refine isPrintable_change hb fun e he => ?_
    cases change with
    | message text => exact ⟨hs, he.details, he.lead⟩
    | details text lead => exact ⟨he.message, hs.1, hs.2⟩
    | start => exact ⟨he.message, he.details, he.lead⟩
    | finish outcome => exact ⟨he.message, he.details, he.lead⟩

/-- The lines that a rendering writes for the entries that have ended. -/
def settling (c : Config) (now : Nat) (b : Board) : List (List Char) :=
  (b.log.ended b.entries).flatMap fun i => (b.entries.getD i default).finalCells c.width now

/-- The lines that a live rendering writes below those. -/
def remaining (c : Config) (now : Nat) (b : Board) : List (List Char) :=
  ((b.log.moved b.entries).shown c b.entries).map fun i =>
    (b.entries.getD i default).cells c.width now

section Lines

variable {c : Config} {now columns : Nat} {b : Board}

theorem sheet_settling (hb : b.IsPrintable) (palette : Palette) :
    Sheet ((b.log.ended b.entries).flatMap fun i =>
      ((b.entries.getD i default).finalLines palette c.width now).toList) (b.settling c now) :=
  .flatMap _ fun i _ => Entry.sheet_finalLines (hb i) palette c.width now

theorem sheet_remaining (hb : b.IsPrintable) (palette : Palette) :
    Sheet (((b.log.moved b.entries).shown c b.entries).flatMap fun i =>
      ((b.entries.getD i default).line palette c.width now).toList) (b.remaining c now) := by
  rw [remaining, List.map_eq_flatMap]
  exact .flatMap _ fun i _ => Entry.sheet_line (hb i) palette c.width now

theorem sheet_plain_pieces (hwidth : c.width ≠ 0) (hb : b.IsPrintable) :
    Sheet ((b.log.pieces c.plain columns now b.entries).flatMap (·.text.toList))
      (b.settling c now) := by
  simp only [Log.pieces, Config.plain_appendOnly, Config.plain_palette, Config.plain_lineWidth,
    Config.lineWidth_eq hwidth, if_true, List.flatMap_map, Piece.text]
  exact sheet_settling hb c.palette

theorem sheet_live_pieces (hwidth : c.width ≠ 0) (hb : b.IsPrintable) :
    ∃ text, (b.log.pieces c.live columns now b.entries).flatMap (·.text.toList) =
        (Log.takeBack (b.log.rows c.width)).toList ++ text ∧
      Sheet text (b.settling c now ++ b.remaining c now) := by
  refine ⟨_, ?_, (sheet_settling hb c.palette).append (sheet_remaining hb c.palette)⟩
  simp only [Log.pieces, Config.live_appendOnly, Config.live_palette, Config.live_lineWidth,
    Config.lineWidth_eq hwidth, Log.live_shown, Bool.false_eq_true, if_false, List.flatMap_cons,
    List.flatMap_append, List.flatMap_map, Piece.text]

theorem length_of_mem_remaining (htidy : Tidy c now (.render columns) b) {l : List Char}
    (hl : l ∈ b.remaining c now) : l.length = c.width - 1 := by
  obtain ⟨i, hi, rfl⟩ := List.mem_map.mp hl
  exact Entry.length_cells (htidy i (List.mem_append_right _ hi))

theorem length_of_mem_settling (htidy : Tidy c now (.render columns) b) {l : List Char}
    (hl : l ∈ b.settling c now) : l.length ≤ c.width := by
  obtain ⟨i, hi, hl⟩ := List.mem_flatMap.mp hl
  exact Entry.length_of_mem_finalCells (htidy i (List.mem_append_left _ hi)) hl

/-- Details are never written first. -/
theorem length_of_head_lines (htidy : Tidy c now (.render columns) b) {l : List Char}
    (hl : (b.settling c now ++ b.remaining c now).head? = some l) : l.length = c.width - 1 := by
  cases he : b.log.ended b.entries with
  | nil =>
    simp only [settling, he, List.flatMap_nil, List.nil_append] at hl
    exact length_of_mem_remaining htidy (List.mem_of_mem_head? hl)
  | cons i is =>
    simp only [settling, he, List.flatMap_cons, Entry.finalCells, List.cons_append,
      List.head?_cons, Option.some.injEq] at hl
    exact hl ▸ Entry.length_cells (htidy i (by simp [he]))

end Lines

/-- The live log agrees with the other one, whose text has the settled lines; the screen of the live
one holds these and the active lines. -/
structure Mirrors (c : Config) (columns : Nat) (live plain : Board)
    (settled active : List (List Char)) : Prop where
  entries : live.entries = plain.entries
  pending : live.log.pending = plain.log.pending
  inProgress : live.log.inProgress = plain.log.inProgress
  done : live.log.done = plain.log.done
  printable : live.IsPrintable
  height : live.log.height = active.length
  lastWidth : live.log.lastWidth = 0 ∨ live.log.lastWidth = c.width
  sheet : Sheet plain.sink.text.toList settled
  holds : (feed columns {} live.sink.text.toList).Holds (c.width - 1) settled active

namespace Mirrors

variable {c : Config} {columns now width : Nat} {live plain live' plain' : Board}
  {settled active : List (List Char)}

theorem start (c : Config) (columns : Nat) {sink sink' : Sink} (h : sink.text = "")
    (h' : sink'.text = "") : Mirrors c columns { sink } { sink := sink' } [] [] where
  entries := rfl
  pending := rfl
  inProgress := rfl
  done := rfl
  printable i := by simpa using Entry.IsPrintable.default
  height := rfl
  lastWidth := .inl rfl
  sheet := by simpa [h'] using Sheet.nil
  holds := by
    simp only [h, String.toList_empty]
    exact ⟨rfl, ⟨rfl, rfl, fun r hr => absurd hr (Nat.not_lt_zero r), fun _ _ _ => rfl⟩,
      by simp, fun _ _ => rfl⟩

theorem ended_eq (h : Mirrors c columns live plain settled active) :
    plain.log.ended plain.entries = live.log.ended live.entries := by
  simp only [Log.ended, h.entries, h.inProgress]

theorem settling_eq (h : Mirrors c columns live plain settled active) :
    plain.settling c now = live.settling c now := by
  simp only [settling, h.ended_eq, h.entries]

theorem rows_eq (h : Mirrors c columns live plain settled active) :
    live.log.rows c.width = active.length := by
  rcases h.lastWidth with h0 | h0
  · simp [Log.rows, h.height, h0]
  · simp [Log.rows, h.height, h0]

/-- The screen of the live log after a rendering: the lines that it held are taken back, and the new
ones laid over their rows. -/
theorem feed_render (h : Mirrors c columns live plain settled active)
    (hwidth : c.width ≠ 0) (hcolumns : c.width ≤ columns)
    (htidy : Tidy c now (.render width) live)
    (hlive : live.take c.live now (.render width) = some live') :
    ∃ t : Terminal, t.Holds (c.width - 1) settled [] ∧ feed columns {} live'.sink.text.toList =
      t.lay (live.settling c now ++ live.remaining c now) := by
  obtain ⟨text, htext, hsheet⟩ :
      ∃ text, (live.log.pieces c.live width now live.entries).flatMap (·.text.toList) =
          (Log.takeBack (live.log.rows c.width)).toList ++ text ∧
        Sheet text (live.settling c now ++ live.remaining c now) :=
    sheet_live_pieces hwidth h.printable
  have hback := h.holds.takeBack columns
  have hfit : ∀ l ∈ live.settling c now ++ live.remaining c now, l.length ≤ columns := by
    intro l hl
    rcases List.mem_append.mp hl with hl | hl
    · exact Nat.le_trans (length_of_mem_settling htidy hl) hcolumns
    · have := length_of_mem_remaining htidy hl
      omega
  refine ⟨_, hback, ?_⟩
  rw [(take_render hlive).2.2, htext, h.rows_eq, feed_append, feed_append,
    feed_sheet hsheet hback.scan hback.shows.column hfit]

theorem render (h : Mirrors c columns live plain settled active)
    (hwidth : c.width ≠ 0) (hcolumns : c.width ≤ columns)
    (htidy : Tidy c now (.render width) live)
    (hlive : live.take c.live now (.render width) = some live')
    (hplain : plain.take c.plain now (.render width) = some plain') :
    Mirrors c columns live' plain' (settled ++ live.settling c now) (live.remaining c now) := by
  obtain ⟨t, ht, hfeed⟩ := h.feed_render hwidth hcolumns htidy hlive
  obtain ⟨hle, hll, -⟩ := take_render hlive
  obtain ⟨hpe, hpl, hpt⟩ := take_render hplain
  simp only [Config.live_appendOnly, Config.live_lineWidth, Log.live_shown, Bool.false_eq_true,
    if_false] at hll
  simp only [Config.plain_appendOnly, if_true] at hpl
  refine ⟨?_, ?_, ?_, ?_, ?_, ?_, ?_, ?_, ?_⟩
  · rw [hle, hpe, h.entries]
  · rw [hll, hpl]
    simp only [Log.moved_pending, h.entries, h.pending]
  · rw [hll, hpl]
    simp only [Log.moved_inProgress, h.entries, h.pending, h.inProgress]
  · rw [hll, hpl]
    simp only [Log.moved_done, h.done, h.ended_eq]
  · exact isPrintable_take h.printable htidy hlive
  · rw [remaining, List.length_map, hll]
  · rw [hll]
    exact .inr (Config.lineWidth_eq hwidth width)
  · rw [hpt, ← h.settling_eq]
    refine h.sheet.append (sheet_plain_pieces hwidth fun i => ?_)
    exact h.entries ▸ h.printable i
  · rw [hfeed]
    exact ht.lay (fun l => length_of_head_lines htidy) fun l => length_of_mem_remaining htidy

theorem take {s : Step} (h : Mirrors c columns live plain settled active)
    (hwidth : c.width ≠ 0) (hcolumns : c.width ≤ columns) (htidy : Tidy c now s live)
    (hlive : live.take c.live now s = some live')
    (hplain : plain.take c.plain now s = some plain') :
    ∃ settled' active', Mirrors c columns live' plain' settled' active' := by
  cases s with
  | render width => exact ⟨_, _, h.render hwidth hcolumns htidy hlive hplain⟩
  | create message =>
    cases hlive
    cases hplain
    exact ⟨settled, active, by rw [h.entries], h.pending, h.inProgress, h.done,
      isPrintable_create h.printable htidy, h.height, h.lastWidth, h.sheet, h.holds⟩
  | add ids =>
    cases hlive
    cases hplain
    exact ⟨settled, active, h.entries, by simp only [Log.add, h.pending], h.inProgress, h.done,
      h.printable, h.height, h.lastWidth, h.sheet, h.holds⟩
  | change entry change =>
    have hprintable := isPrintable_take h.printable htidy hlive
    cases hlive
    cases hplain
    exact ⟨settled, active, by rw [h.entries], h.pending, h.inProgress, h.done, hprintable,
      h.height, h.lastWidth, h.sheet, h.holds⟩

theorem run {steps : List (Nat × Step)} {sink sink' : Sink} (hwidth : c.width ≠ 0)
    (hcolumns : c.width ≤ columns) (hsink : sink.text = "") (hsink' : sink'.text = "")
    (htidy : Along c.live (Tidy c) steps { sink })
    (hlive : Board.run c.live steps { sink } = some live)
    (hplain : Board.run c.plain steps { sink := sink' } = some plain) :
    ∃ settled active, Mirrors c columns live plain settled active := by
  -- from the last step back, since the two runs start from boards that do not change
  induction steps using List.reverseRecOn generalizing live plain with
  | nil =>
    cases hlive
    cases hplain
    exact ⟨[], [], start c columns hsink hsink'⟩
  | append_singleton steps s ih =>
    rw [run_concat] at hlive hplain
    obtain ⟨live₁, hlive₁, hlive⟩ := Option.bind_eq_some_iff.mp hlive
    obtain ⟨plain₁, hplain₁, hplain⟩ := Option.bind_eq_some_iff.mp hplain
    obtain ⟨settled, active, h⟩ := ih (along_left htidy) hlive₁ hplain₁
    exact h.take hwidth hcolumns (along_append hlive₁ htidy).1 hlive hplain

end Mirrors

end Board

end Muster.Progress
