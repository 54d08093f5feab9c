import Mathlib.Algebra.Order.Floor.Div
import Mathlib.GroupTheory.GroupAction.Ring
import Muster.Proofs.Progress.Mirror

/-! A live log on a terminal whose width changes. Main statement: the lines of one rendering and the rows
that the next one takes back, and for which widths these are more or fewer rows than the lines then
take. -/

namespace Muster.Progress

open Terminal

section Arithmetic

variable {columns columns' height : Nat}

theorem mul_add_ceilDiv (h : 0 < columns) (q r : Nat) :
    (q * columns + r) ⌈/⌉ columns = q + r ⌈/⌉ columns := by
  rw [Nat.ceilDiv_eq_add_pred_div, Nat.ceilDiv_eq_add_pred_div]
  have hsplit : q * columns + r + columns - 1 = r + columns - 1 + q * columns := by omega
  rw [hsplit, Nat.add_mul_div_right _ _ h, Nat.add_comm]

theorem ceilDiv_eq_one {r : Nat} (hpos : 0 < r) (hle : r ≤ columns) : r ⌈/⌉ columns = 1 := by
  rw [Nat.ceilDiv_eq_add_pred_div]
  have hsplit : r + columns - 1 = r - 1 + 1 * columns := by omega
  rw [hsplit, Nat.add_mul_div_right _ _ (by omega), Nat.div_eq_of_lt (by omega)]

/-- A line that leaves the last cell free takes another row only for what is more than one cell. -/
theorem pred_ceilDiv (h : 2 ≤ columns') (hpos : 0 < columns) :
    (columns - 1) ⌈/⌉ columns' =
      columns / columns' + if columns % columns' ≤ 1 then 0 else 1 := by
  have hdiv : columns / columns' * columns' + columns % columns' = columns :=
    Nat.div_add_mod' columns columns'
  have hmod : columns % columns' < columns' := Nat.mod_lt _ (by omega)
  generalize columns / columns' = q at hdiv ⊢
  generalize columns % columns' = r at hdiv hmod ⊢
  by_cases hzero : r = 0
  · obtain ⟨q, rfl⟩ : ∃ q', q = q' + 1 := by
      cases q with
      | zero => omega
      | succ q => exact ⟨q, rfl⟩
    rw [Nat.add_mul] at hdiv
    have hsplit : columns - 1 = q * columns' + (columns' - 1) := by omega
    rw [hsplit, mul_add_ceilDiv (by omega), ceilDiv_eq_one (by omega) (by omega), if_pos (by omega)]
  · have hsplit : columns - 1 = q * columns' + (r - 1) := by omega
    rw [hsplit, mul_add_ceilDiv (by omega)]
    by_cases hone : r ≤ 1
    · rw [if_pos hone, show r - 1 = 0 by omega, zero_ceilDiv]
    · rw [if_neg hone, ceilDiv_eq_one (by omega) (by omega)]

theorem mul_ceilDiv_split (h : 0 < columns') :
    (height * columns) ⌈/⌉ columns' =
      height * (columns / columns') + (height * (columns % columns')) ⌈/⌉ columns' := by
  have hdiv : columns / columns' * columns' + columns % columns' = columns :=
    Nat.div_add_mod' columns columns'
  have hsplit : height * columns =
      height * (columns / columns') * columns' + height * (columns % columns') := by
    rw [Nat.mul_assoc, ← Nat.mul_add, hdiv]
  rw [hsplit, mul_add_ceilDiv h]

/-- Lines that flow on take more rows than lines of their own only where each of these ends with its
row. -/
theorem lt_flowed_iff (h : 2 ≤ columns') (hpos : 0 < columns) :
    height * ((columns - 1) ⌈/⌉ columns') < (height * columns) ⌈/⌉ columns' ↔
      0 < height ∧ columns % columns' = 1 := by
  have hmod : columns % columns' < columns' := Nat.mod_lt _ (by omega)
  rw [pred_ceilDiv h hpos, mul_ceilDiv_split (by omega), Nat.mul_add, Nat.add_lt_add_iff_left]
  generalize columns % columns' = r at hmod ⊢
  by_cases hone : r ≤ 1
  · rw [if_pos hone, Nat.mul_zero, ← not_le, ceilDiv_le_iff_le_mul (by omega), Nat.mul_zero,
      Nat.le_zero, Nat.mul_eq_zero]
    omega
  · rw [if_neg hone, Nat.mul_one, ← not_le, ceilDiv_le_iff_le_mul (by omega),
      Nat.mul_comm columns' height]
    have hle : height * r ≤ height * columns' := Nat.mul_le_mul_left _ hmod.le
    constructor
    · intro hnot
      exact absurd hle hnot
    · omega

theorem flowed_lt_iff (h : 2 ≤ columns') (hpos : 0 < columns) :
    (height * columns) ⌈/⌉ columns' < height * ((columns - 1) ⌈/⌉ columns') ↔
      2 ≤ columns % columns' ∧ columns' ≤ height * (columns' - columns % columns') := by
  have hmod : columns % columns' < columns' := Nat.mod_lt _ (by omega)
  rw [pred_ceilDiv h hpos, mul_ceilDiv_split (by omega), Nat.mul_add, Nat.add_lt_add_iff_left]
  generalize columns % columns' = r at hmod ⊢
  by_cases hone : r ≤ 1
  · rw [if_pos hone]
    omega
  · rw [if_neg hone, Nat.mul_one, Nat.mul_sub]
    cases height with
    | zero => omega
    | succ height =>
      rw [Nat.lt_succ_iff, ceilDiv_le_iff_le_mul (by omega), Nat.add_mul, Nat.add_mul,
        Nat.mul_comm columns' height]
      omega

end Arithmetic

namespace Terminal

/-- The rows that lines take where a row has so many cells. -/
def rowsTaken (columns : Nat) (lines : List (List Char)) : Nat :=
  (lines.map fun l => max 1 (l.length ⌈/⌉ columns)).sum

variable {columns : Nat} {t : Terminal} {text : List Char}

/-- A line goes on in the next row where it fills one. -/
theorem row_feed_painted {line : List Char} (h : Painted text line) (hcolumns : 0 < columns)
    (ht : t.scan = .text) (hcolumn : t.column ≤ columns) :
    (feed columns t text).scan = .text ∧
      (feed columns t text).row + 1 = t.row + max 1 ((t.column + line.length) ⌈/⌉ columns) := by
  induction h generalizing t with
  | nil =>
    have hone : (t.column + 0) ⌈/⌉ columns ≤ 1 := by
      rw [ceilDiv_le_iff_le_mul hcolumns]
      omega
    exact ⟨ht, by rw [List.length_nil, max_eq_left hone]; rfl⟩
  | @visible c text line hc _ ih =>
    change (feed columns (t.read columns c) text).scan = .text ∧
      (feed columns (t.read columns c) text).row + 1 = _
    rw [read_visible ht hc, List.length_cons]
    by_cases hfit : t.column < columns
    · have hput : (t.put columns c).row = t.row ∧ (t.put columns c).column = t.column + 1 := by
        simp [put, hfit]
      obtain ⟨hscan, hrow⟩ := @ih (t.put columns c) (by simp [put, hfit, ht]) (by omega)
      rw [hput.1, hput.2, Nat.add_assoc, Nat.add_comm 1] at hrow
      exact ⟨hscan, hrow⟩
    -- the row is full, so that this character is the first one of the next
    · have hput : (t.put columns c).row = t.row + 1 ∧ (t.put columns c).column = 1 := by
        simp [put, hfit, newLine]
      obtain ⟨hscan, hrow⟩ := @ih (t.put columns c) (by simp [put, hfit, ht, newLine]) (by omega)
      have hfull : t.column = 1 * columns := by omega
      have hpos : ¬ (line.length + 1) ⌈/⌉ columns ≤ 0 := by
        rw [ceilDiv_le_iff_le_mul hcolumns]
        omega
      rw [hput.1, hput.2, Nat.add_comm 1 line.length] at hrow
      refine ⟨hscan, ?_⟩
      rw [hrow, hfull, mul_add_ceilDiv hcolumns]
      omega
  | @colour parameters text line hp _ ih =>
    have hsplit : '\x1b' :: '[' :: (parameters ++ 'm' :: text) =
        ('\x1b' :: '[' :: (parameters ++ ['m'])) ++ text := by simp
    rw [hsplit, feed_append, feed_colour ht hp]
    exact ih ht hcolumn

theorem row_feed_sheet {lines : List (List Char)} (h : Sheet text lines) (hcolumns : 0 < columns)
    (ht : t.scan = .text) (hcolumn : t.column = 0) :
    (feed columns t text).row = t.row + rowsTaken columns lines := by
  induction h generalizing t with
  | nil => rfl
  | @line text line rest lines hp _ ih =>
    obtain ⟨hscan, hrow⟩ := row_feed_painted hp hcolumns ht (by omega)
    rw [hcolumn, Nat.zero_add] at hrow
    rw [feed_append]
    change (feed columns (feed columns (feed columns t text) ['\n']) rest).row = _
    have hnext := @ih (feed columns t text).newLine hscan rfl
    rw [feed_newline hscan, hnext]
    simp only [newLine, rowsTaken, List.map_cons, List.sum_cons]
    omega

theorem rowsTaken_eq {lines : List (List Char)} {cells : Nat} (hcolumns : 0 < columns)
    (hpos : 0 < cells) (h : ∀ l ∈ lines, l.length = cells) :
    rowsTaken columns lines = lines.length * (cells ⌈/⌉ columns) := by
  have hone : ¬ cells ⌈/⌉ columns ≤ 0 := by
    rw [ceilDiv_le_iff_le_mul hcolumns]
    omega
  have hmap : (lines.map fun l => max 1 (l.length ⌈/⌉ columns)) =
      List.replicate lines.length (cells ⌈/⌉ columns) := by
    rw [← List.map_const']
    refine List.map_congr_left fun l hl => ?_
    rw [h l hl]
    omega
  rw [rowsTaken, hmap, List.sum_replicate_nat]

end Terminal

theorem Config.lineWidth_of_le {c : Config} {columns : Nat} (hwidth : c.width = 0)
    (h : leastColumns ≤ columns) : c.lineWidth columns = columns := by
  rw [lineWidth, if_pos hwidth, max_eq_left h]

/-- The lines of the last rendering are counted as if they flowed on, also where the width is the same. -/
theorem Log.rows_eq {log : Log} {columns columns' : Nat} (hpos : 0 < columns) (hpos' : 0 < columns')
    (h : log.lastWidth = columns) : log.rows columns' = (log.height * columns) ⌈/⌉ columns' := by
  rw [Log.rows, h]
  by_cases hsame : columns = columns'
  · rw [if_neg (fun hne => hne.2 hsame), ← hsame, Nat.mul_comm, ← smul_eq_mul, smul_ceilDiv hpos]
  · rw [if_pos ⟨hpos, hsame⟩, Nat.ceilDiv_eq_add_pred_div, Nat.add_sub_assoc hpos']

theorem Log.pieces_live {c : Config} (columns now : Nat) (entries : List Entry) (log : Log)
    (hlive : c.appendOnly = false) :
    let actives := ((log.moved entries).shown c entries).map fun i =>
      Piece.active i ((entries.getD i default).line c.palette (c.lineWidth columns) now)
    ∃ finals, log.pieces c columns now entries =
        .taken (log.rows (c.lineWidth columns)) :: (finals ++ actives) ∧
      ∀ p ∈ finals ++ actives, ∀ n, p ≠ .taken n := by
  intro actives
  refine ⟨_, by rw [Log.pieces, hlive]; rfl, fun p hp n => ?_⟩
  rintro rfl
  simp [actives] at hp

namespace Board

variable {c : Config} {columns columns' now now' : Nat} {b b' b₁ b₂ b₃ : Board}

theorem take_quiet {s : Step} (hquiet : ∀ n, s ≠ .render n) (h : b.take c now s = some b') :
    b'.log.height = b.log.height ∧ b'.log.lastWidth = b.log.lastWidth ∧ b'.sink = b.sink := by
  cases s with
  | render columns => exact absurd rfl (hquiet columns)
  | create message =>
    cases h
    exact ⟨rfl, rfl, rfl⟩
  | add ids =>
    cases h
    exact ⟨rfl, rfl, rfl⟩
  | change entry change =>
    cases h
    exact ⟨rfl, rfl, rfl⟩

theorem run_quiet {steps : List (Nat × Step)} (hquiet : ∀ s ∈ steps, ∀ n, s.2 ≠ .render n)
    (h : run c steps b = some b') :
    b'.log.height = b.log.height ∧ b'.log.lastWidth = b.log.lastWidth ∧ b'.sink = b.sink := by
  induction steps generalizing b with
  | nil =>
    cases h
    exact ⟨rfl, rfl, rfl⟩
  | cons s steps ih =>
    obtain ⟨b₁, hstep, hrest⟩ := Option.bind_eq_some_iff.mp h
    obtain ⟨hheight, hlastWidth, hsink⟩ := take_quiet (hquiet s (by simp)) hstep
    obtain ⟨hheight', hlastWidth', hsink'⟩ :=
      ih (fun s' hs' => hquiet s' (List.mem_cons_of_mem _ hs')) hrest
    exact ⟨hheight'.trans hheight, hlastWidth'.trans hlastWidth, hsink'.trans hsink⟩

/-- What a rendering takes back once the width of the terminal may have changed since the last one. The
lines of that one left the last cell of a row free. As many rows are taken back as these lines would fill
with that cell and flowing on behind each other, though each of them starts in a row of its own. These are
too many rows if the free cell is the only one that does not fit in whole rows, and too few if what each
line leaves of its last row is a whole row for all lines together. -/
theorem taken_back_of_resized {steps : List (Nat × Step)} (hwidth : c.width = 0)
    (hlive : c.appendOnly = false) (hcolumns : leastColumns ≤ columns)
    (hcolumns' : leastColumns ≤ columns')
    (helapsed : ∀ i ∈ (b.log.moved b.entries).shown c b.entries,
      ((b.entries.getD i default).elapsed now).length < columns)
    (hfirst : b.take c now (.render columns) = some b₁) (hbetween : run c steps b₁ = some b₂)
    (hquiet : ∀ s ∈ steps, ∀ n, s.2 ≠ .render n)
    (hsecond : b₂.take c now' (.render columns') = some b₃) :
    let lines := b.remaining { c with width := columns } now
    let text := ((b.log.moved b.entries).shown c b.entries).flatMap fun i =>
      ((b.entries.getD i default).line c.palette columns now).toList
    let taken := (lines.length * columns) ⌈/⌉ columns'
    let needed := rowsTaken columns' lines
    (∃ (above : List Char) (below : List Piece),
      b₃.sink.text.toList = b.sink.text.toList ++ above ++ text ++ (Log.takeBack taken).toList ++
        below.flatMap (·.text.toList) ∧
      ∀ p ∈ below, ∀ n, p ≠ Piece.taken n) ∧
    (b.IsPrintable → ∀ t : Terminal, t.scan = .text → t.column = 0 →
      (feed columns' t text).row = t.row + needed) ∧
    (∀ l ∈ lines, l.length = columns - 1) ∧
    needed = lines.length * ((columns - 1) ⌈/⌉ columns') ∧
    (needed < taken ↔ 0 < lines.length ∧ columns % columns' = 1) ∧
    (taken < needed ↔
      2 ≤ columns % columns' ∧ columns' ≤ lines.length * (columns' - columns % columns')) := by
  intro lines text taken needed
  have hline : c.lineWidth columns = columns := Config.lineWidth_of_le hwidth hcolumns
  have hline' : c.lineWidth columns' = columns' := Config.lineWidth_of_le hwidth hcolumns'
  rw [leastColumns] at hcolumns hcolumns'
  have hlength : ∀ l ∈ lines, l.length = columns - 1 := by
    intro l hl
    obtain ⟨i, hi, rfl⟩ := List.mem_map.mp hl
    exact Entry.length_cells (helapsed i hi)
  have hneeded : needed = lines.length * ((columns - 1) ⌈/⌉ columns') :=
    rowsTaken_eq (by omega) (by omega) hlength
  refine ⟨?_, fun hb t ht hcolumn => ?_, hlength, hneeded, ?_, ?_⟩
  · obtain ⟨hheight, hlastWidth, hsink⟩ := run_quiet hquiet hbetween
    obtain ⟨-, hlog, htext⟩ := take_render hfirst
    rw [hlog, hlive] at hheight hlastWidth
    have htaken : b₂.log.rows columns' = taken := by
      rw [Log.rows_eq (by omega) (by omega) (hlastWidth.trans hline), hheight]
      exact congrArg (fun n => (n * columns) ⌈/⌉ columns') (List.length_map _).symm
    obtain ⟨finals, hpieces, -⟩ := Log.pieces_live columns now b.entries b.log hlive
    obtain ⟨finals', hpieces', hfinals'⟩ := Log.pieces_live columns' now' b₂.entries b₂.log hlive
    obtain ⟨-, -, htext'⟩ := take_render hsecond
    refine ⟨(Log.takeBack (b.log.rows (c.lineWidth columns))).toList ++
      finals.flatMap (·.text.toList), finals' ++ _, ?_, hfinals'⟩
    rw [htext', hpieces', hsink, htext, hpieces, hline, hline', htaken]
    simp only [List.flatMap_cons, List.flatMap_append, List.flatMap_map, List.append_assoc,
      Piece.text, text]
  · have hsheet : Sheet text lines :=
      sheet_remaining (c := { c with width := columns }) hb c.palette
    exact row_feed_sheet hsheet (by omega) ht hcolumn
  · rw [hneeded]
    exact lt_flowed_iff (by omega) (by omega)
  · rw [hneeded]
    exact flowed_lt_iff (by omega) (by omega)

/-- The line takes two rows, but three are taken back. -/
theorem taken_back_of_resized_narrower :
    let c : Config := { appendOnly := false, palette := .plain }
    let b : Board := { entries := [{ message := "a" }], log := { pending := [0] } }
    let steps : List (Nat × Step) := [(5, .change 0 .start), (6, .create "b")]
    ∃ b₁ b₂ b₃, b.take c 0 (.render 41) = some b₁ ∧ run c steps b₁ = some b₂ ∧
      b₂.take c 9 (.render 20) = some b₃ ∧
      (∃ (above : List Char) (below : List Piece), b₃.sink.text.toList =
        above ++ (Log.takeBack 3).toList ++ below.flatMap (·.text.toList)) ∧
      (feed 20 {} ((b.entries.getD 0 default).line .plain 41 0).toList).row = 2 ∧
      rowsTaken 20 (b.remaining { c with width := 41 } 0) = 2 := by
  intro c b steps
  have hb : b.IsPrintable := by
    intro i
    cases i with
    | zero => exact ⟨by decide, .empty, .empty⟩
    | succ i => exact .default
  obtain ⟨b₁, hfirst, hroom₁⟩ := take_of_room c 0 (.render 41) (b := b) rfl
  obtain ⟨b₂, hbetween, hroom₂⟩ := run_of_room c steps hroom₁
  obtain ⟨b₃, hsecond, -⟩ := take_of_room c 9 (.render 20) hroom₂
  obtain ⟨⟨above, below, htext, -⟩, hrow, -, hneeded, -⟩ :=
    taken_back_of_resized rfl rfl (by decide) (by decide) (by decide) hfirst hbetween
      (by simp [steps]) hsecond
  have htaken : ((b.remaining { c with width := 41 } 0).length * 41) ⌈/⌉ 20 = 3 := by decide
  have hshown : (b.log.moved b.entries).shown c b.entries = [0] := by decide
  have hrow := hrow hb {} rfl rfl
  rw [htaken] at htext
  rw [hneeded, hshown, List.flatMap_singleton] at hrow
  exact ⟨b₁, b₂, b₃, hfirst, hbetween, hsecond, ⟨_, below, htext⟩, hrow, hneeded⟩

/-- One line of 40 cells takes two rows of 20, but three are taken back, one of them above it. Two lines
of 19 cells take two rows of 40, but one is taken back. -/
theorem taken_back_not_needed :
    let c : Config := { appendOnly := false, palette := .plain }
    let one : List (Nat × Step) := [(0, .create "a"), (0, .add [0])]
    let two : List (Nat × Step) := [(0, .create "a"), (0, .create "b"), (0, .add [0, 1])]
    (run c one {}).map (fun b => rowsTaken 20 (b.remaining { c with width := 41 } 0)) = some 2 ∧
    (run c (one ++ [(0, .render 41)]) {}).bind (fun b => (b.pieces c 0 (.render 20)).head?) =
      some (.taken 3) ∧
    (run c two {}).map (fun b => rowsTaken 40 (b.remaining { c with width := 20 } 0)) = some 2 ∧
    (run c (two ++ [(0, .render 20)]) {}).bind (fun b => (b.pieces c 0 (.render 40)).head?) =
      some (.taken 1) := by
  decide

end Board

end Muster.Progress
