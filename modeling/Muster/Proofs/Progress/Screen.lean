import Muster.Proofs.Progress.Board
import Muster.Proofs.Progress.Terminal
import Muster.Proofs.Text.Layout

/-! What a live log shows on a terminal: the lines that stay, as a log that is never taken back has them,
and below these the lines of the entries that have not ended. -/

namespace Muster.Progress

open Terminal

def isControl (c : Char) : Bool := c.toNat < 32 || (127 ≤ c.toNat && c.toNat < 160)

/-- A text without control characters other than newlines. -/
def IsPrintable (text : String) : Prop := ∀ c ∈ text.toList, c = '\n' ∨ isControl c = false

instance (text : String) : Decidable (IsPrintable text) :=
  List.decidableBAll _ text.toList

theorem IsPrintable.empty : IsPrintable "" := by simp [IsPrintable]

theorem IsPrintable.visible {text : String} (h : IsPrintable text) :
    ∀ c ∈ text.toList, c = '\n' ∨ IsVisible c := by
  intro c hc
  refine (h c hc).imp_right fun hcontrol => ⟨?_, ?_, ?_⟩ <;>
    · rintro rfl
      exact absurd hcontrol (by decide)

theorem isVisible_of_isDigit {c : Char} (h : c.isDigit = true) : IsVisible c := by
  refine ⟨?_, ?_, ?_⟩ <;>
    · rintro rfl
      exact absurd h (by decide)

namespace Entry

structure IsPrintable (e : Entry) : Prop where
  message : Progress.IsPrintable e.message
  details : Progress.IsPrintable e.details
  lead : Progress.IsPrintable e.lead

def cells (e : Entry) (width now : Nat) : List Char :=
  Text.fit e.message.toList (width - (1 + (e.elapsed now).length)) ++ (e.elapsed now).toList

def detailCells (e : Entry) (width : Nat) : List (List Char) :=
  if e.details.isEmpty then [] else Text.paragraph e.details.toList e.lead.toList width

def finalCells (e : Entry) (width now : Nat) : List (List Char) :=
  e.cells width now :: e.detailCells width

theorem visible_elapsed (e : Entry) (now : Nat) : ∀ c ∈ (e.elapsed now).toList, IsVisible c := by
  unfold elapsed
  split
  · simp
  · intro c hc
    simp only [writeElapsed, String.toList_append, List.mem_append] at hc
    rcases hc with ((hc | hc) | hc) | hc
    · exact isVisible_of_isDigit (Painted.digits hc)
    · obtain rfl : c = 'm' := by simpa using hc
      exact by decide
    · exact isVisible_of_isDigit (Painted.digits hc)
    · obtain rfl : c = 's' := by simpa using hc
      exact by decide

theorem length_cells {e : Entry} {width now : Nat} (h : (e.elapsed now).length < width) :
    (e.cells width now).length = width - 1 := by
  simp only [cells, List.length_append, Text.length_fit, String.length_toList]
  omega

theorem sheet_line {e : Entry} (he : e.IsPrintable) (palette : Palette) (width now : Nat) :
    Sheet (e.line palette width now).toList [e.cells width now] := by
  have hmessage := Text.forall_mem_fit (P := IsVisible) (by decide) (by decide)
    he.message.visible (width - (1 + (e.elapsed now).length))
  have helapsed := Painted.paint palette elapsedColour (visible_elapsed e now)
  rw [String.ofList_toList] at helapsed
  have hpainted : ∃ painted, (e.line palette width now).toList = painted ++ ['\n'] ∧
      Painted painted (e.cells width now) := by
    cases hs : e.stage with
    | running since =>
      exact ⟨_, by simp [line, hs],
        (Painted.paintBold palette (Stage.running since).colour hmessage).append helapsed⟩
    | waiting =>
      exact ⟨_, by simp [line, hs],
        (Painted.paint palette Stage.waiting.colour hmessage).append helapsed⟩
    | ended since outcome =>
      exact ⟨_, by simp [line, hs],
        (Painted.paint palette (Stage.ended since outcome).colour hmessage).append helapsed⟩
  obtain ⟨painted, htext, hp⟩ := hpainted
  exact htext ▸ .single hp

theorem sheet_detailParts {e : Entry} (he : e.IsPrintable) (palette : Palette) (width : Nat) :
    Sheet ((e.detailParts palette width).flatMap String.toList) (e.detailCells width) := by
  cases hd : e.details.isEmpty with
  | true =>
    simp only [detailParts, detailCells, hd, if_true]
    exact .nil
  | false =>
    simp only [detailParts, detailCells, hd, Bool.false_eq_true, if_false, List.flatMap_map]
    have hvisible := Text.forall_mem_paragraph (P := IsVisible) (by decide) (by decide)
      he.details.visible he.lead.visible width
    have hsheet : ∀ l ∈ Text.paragraph e.details.toList e.lead.toList width, Sheet
        (palette.paint detailsColour (String.ofList l) ++ "\n").toList [l] := by
      intro l hl
      rw [String.toList_append]
      exact .single (Painted.paint palette detailsColour (hvisible l hl))
    simpa only [List.flatMap_singleton'] using Sheet.flatMap _ hsheet

theorem sheet_finalLines {e : Entry} (he : e.IsPrintable) (palette : Palette) (width now : Nat) :
    Sheet (e.finalLines palette width now).toList (e.finalCells width now) := by
  rw [finalLines, toList_intercalate_empty, finalParts, List.flatMap_cons]
  exact (sheet_line he palette width now).append (sheet_detailParts he palette width)

theorem length_of_mem_finalCells {e : Entry} {width now : Nat} {l : List Char}
    (h : (e.elapsed now).length < width) (hl : l ∈ e.finalCells width now) :
    l.length ≤ width := by
  rcases List.mem_cons.mp hl with rfl | hl
  · rw [length_cells h]
    omega
  · unfold detailCells at hl
    split at hl
    · simp at hl
    · exact Nat.le_of_eq (Text.length_of_mem_paragraph hl)

theorem IsPrintable.default : (default : Entry).IsPrintable :=
  ⟨.empty, .empty, .empty⟩

end Entry

/-- The rows above the cursor hold exactly the given lines, and the rows below it nothing. -/
structure Terminal.Shows (t : Terminal) (lines : List (List Char)) : Prop where
  column : t.column = 0
  row : t.row = lines.length
  above : ∀ r < t.row, ∀ k, t.cell r k = (lines.getD r []).getD k ' '
  below : ∀ r, t.row < r → ∀ k, t.cell r k = ' '

/-- What a live log leaves: lines that stay, lines of the same width below them, and in the row of the
cursor at most one more line of that width, left from before. -/
structure Terminal.Holds (t : Terminal) (width : Nat) (settled active : List (List Char)) :
    Prop where
  scan : t.scan = .text
  shows : t.Shows (settled ++ active)
  wide : ∀ l ∈ active, l.length = width
  cursor : ∀ k, width ≤ k → t.cell t.row k = ' '

namespace Terminal

theorem feed_takeBack {columns rows : Nat} {t : Terminal} (ht : t.scan = .text)
    (hrows : rows ≤ t.row) :
    feed columns t (Log.takeBack rows).toList =
      { t with
        cell := fun r k => if t.row - rows < r ∧ r ≤ t.row then ' ' else t.cell r k
        row := t.row - rows
        column := 0 } := by
  have htext : (Log.takeBack rows).toList =
      ['\r'] ++ (List.replicate rows eraseLine).flatMap String.toList := by
    rw [Log.takeBack, toList_intercalate_empty]
    rfl
  rw [htext, feed_append, feed_return ht, feed_eraseLines (by exact ht) (by exact hrows)]

/-- The topmost of the lines taken back is not erased, but it is no wider than it was. -/
theorem Holds.takeBack {width : Nat} {t : Terminal} {settled active : List (List Char)}
    (h : t.Holds width settled active) (columns : Nat) :
    (feed columns t (Log.takeBack active.length).toList).Holds width settled [] := by
  have hrow := h.shows.row
  rw [List.length_append] at hrow
  rw [feed_takeBack h.scan (by omega)]
  refine ⟨h.scan, ⟨rfl, ?_, ?_, ?_⟩, by simp, ?_⟩
  · simp only [List.append_nil]
    omega
  · intro r hr k
    simp only at hr ⊢
    rw [if_neg (by omega), h.shows.above r (by omega) k, List.append_nil,
      List.getD_append _ _ _ _ (by omega)]
  · intro r hr k
    simp only at hr ⊢
    by_cases hle : r ≤ t.row
    · rw [if_pos ⟨hr, hle⟩]
    · rw [if_neg (by omega)]
      exact h.shows.below r (by omega) k
  · intro k hk
    simp only [show ¬ (t.row - active.length < t.row - active.length ∧
      t.row - active.length ≤ t.row) by omega, if_false]
    cases active with
    | nil => exact h.cursor k hk
    | cons l ls =>
      -- the row of the cursor still holds `l`, which ends before `width`
      have hl := h.wide l (by simp)
      simp only [List.length_cons] at hrow ⊢
      rw [show t.row - (ls.length + 1) = settled.length by omega,
        h.shows.above _ (by omega) k, List.getD_append_right _ _ _ _ (Nat.le_refl _), Nat.sub_self,
        List.getD_cons_zero, List.getD_eq_default _ _ (by omega)]

/-- What is left in the row of the cursor goes under a first line of the same width. -/
theorem Holds.cell_lay {width : Nat} {t : Terminal} {settled lines : List (List Char)}
    (h : t.Holds width settled [])
    (hhead : ∀ l, lines.head? = some l → l.length = width) {r : Nat} (hle : t.row ≤ r)
    (hlt : r < t.row + lines.length) (k : Nat) :
    (t.lay lines).cell r k = (lines.getD (r - t.row) []).getD k ' ' := by
  rw [lay_cell h.shows.column, if_pos ⟨hle, hlt⟩]
  by_cases hr : r = t.row
  · subst hr
    rw [Nat.sub_self]
    cases lines with
    | nil => simp at hlt
    | cons l ls =>
      -- `l` covers what was left, which ends before `width` too
      have hlen := hhead l rfl
      rw [List.getD_cons_zero]
      by_cases hk : k < l.length
      · rw [List.getD_eq_getElem _ _ hk, List.getD_eq_getElem _ _ hk]
      · rw [List.getD_eq_default _ _ (by omega), List.getD_eq_default _ _ (by omega)]
        exact h.cursor k (by omega)
  · rw [h.shows.below r (by omega) k]

theorem Holds.cell_lay_row {width : Nat} {t : Terminal} {settled lines : List (List Char)}
    (h : t.Holds width settled []) (hne : lines ≠ []) (k : Nat) :
    (t.lay lines).cell (t.lay lines).row k = ' ' := by
  have := List.length_pos_iff.mpr hne
  rw [lay_cell h.shows.column, lay_row, if_neg (by omega)]
  exact h.shows.below _ (by omega) k

theorem Holds.lay {width : Nat} {t : Terminal} {settled finals actives : List (List Char)}
    (h : t.Holds width settled [])
    (hhead : ∀ l, (finals ++ actives).head? = some l → l.length = width)
    (hwide : ∀ l ∈ actives, l.length = width) :
    (t.lay (finals ++ actives)).Holds width (settled ++ finals) actives := by
  have hrow : t.row = settled.length := by simpa using h.shows.row
  refine ⟨by rw [lay_scan, h.scan], ⟨lay_column h.shows.column _, ?_, ?_, ?_⟩, hwide, ?_⟩
  · simp only [lay_row, List.length_append]
    omega
  · intro r hr k
    rw [lay_row] at hr
    rw [List.append_assoc]
    by_cases hlt : r < settled.length
    · rw [lay_cell h.shows.column, if_neg (by omega), h.shows.above r (by omega) k,
        List.append_nil, List.getD_append _ _ _ _ hlt]
    · rw [h.cell_lay hhead (by omega) hr, hrow,
        List.getD_append_right settled (finals ++ actives) _ _ (by omega)]
  · intro r hr k
    rw [lay_row] at hr
    rw [lay_cell h.shows.column, if_neg (by omega)]
    exact h.shows.below r (by omega) k
  · intro k hk
    by_cases hne : finals ++ actives = []
    · rw [hne]
      exact h.cursor k hk
    · exact h.cell_lay_row hne k

end Terminal

end Muster.Progress
