import Mathlib.Algebra.Ring.Nat
import Mathlib.Data.List.Forall2
import Muster.Output
import Muster.Proofs.Json.Fields
import Muster.Proofs.Text.Paragraph

/-! Tables for people and for machines. Main statement: a line has each cell of its row in the place of the
cell's column, the object of the row has the same cells under the keys of the columns, and neither has
anything else. -/

namespace Muster.Table

open Text (trimRight pad inked)

def texts (t : Table) : List (List String) := t.columns.map Column.header :: t.rows

def column (t : Table) (j : Nat) : List String := t.texts.filterMap fun row => row[j]?

/-- The length of the longest text in a column. -/
def columnWidth (t : Table) (j : Nat) : Nat := ((t.column j).map String.length).max?.getD 0

/-- Where a column starts: one blank stands before the first, two more after each. -/
def offset (t : Table) (j : Nat) : Nat := 1 + ((List.range j).map fun k => t.columnWidth k + 2).sum

def place (t : Table) (j : Nat) (line : List Char) : List Char :=
  (line.drop (t.offset j)).take (t.columnWidth j)

def rowLine (t : Table) (row : List String) : List Char := line t.widths (row.map String.toList)

/-- The table without the cells beyond its columns. -/
def cut (t : Table) : Table := { t with rows := t.rows.map (List.take t.columns.length) }

/-- The line has the texts of a row in the places of their columns. It ends before the first place without a
text, and nothing else is on it. -/
structure Aligned (t : Table) (row : List String) (line : List Char) : Prop where
  shown : ∀ j < t.columns.length, ∀ text : String, row[j]? = some text →
    trimRight (t.place j line) = trimRight text.toList
  ends : ∀ j, t.columns.length ≤ j ∨ row.length ≤ j → line.drop (t.offset j) = []
  inked : inked line = inked ((row.take t.columns.length).map String.toList).flatten

/-- The object has the cells of a row under the keys of their columns, each once, and nothing else. -/
structure Keyed (t : Table) (row : List String) (object : Json) : Prop where
  ordered : object.IsOrdered
  named : ∀ (j : Nat) (c : Column), t.columns[j]? = some c →
    object.field? c.key = row[j]?.map Json.string
  only : ∀ name, (∀ c ∈ t.columns, c.key ≠ name) → object.field? name = none

section Spread

variable {ws : List Nat} {cs : List (List Char)} {w j : Nat} {c : List Char}

theorem spread_eq (ws : List Nat) (cs : List (List Char)) :
    spread ws cs = [' ', ' '].intercalate (List.zipWith pad ws cs) := by
  induction ws generalizing cs with
  | nil => cases cs <;> rfl
  | cons w ws ih =>
    cases cs with
    | nil => rfl
    | cons c cs =>
      cases ws with
      | nil => cases cs <;> exact List.intercalate_singleton.symm
      | cons v ws =>
        cases cs with
        | nil => exact List.intercalate_singleton.symm
        | cons d cs =>
          rw [List.zipWith_cons_cons, List.zipWith_cons_cons, List.intercalate_cons_cons,
            ← List.zipWith_cons_cons, ← ih, List.append_assoc]
          rfl

/-- Behind the first text come two blanks and the other texts, or nothing if there are none. -/
theorem exists_spread_cons (w : Nat) (ws : List Nat) (c : List Char) (cs : List (List Char)) :
    ∃ more, spread (w :: ws) (c :: cs) = pad w c ++ more ∧ more.drop 2 = spread ws cs ∧
      inked more = inked (spread ws cs) := by
  rw [spread_eq, spread_eq, List.zipWith_cons_cons]
  cases List.zipWith pad ws cs with
  | nil => exact ⟨[], by rw [List.intercalate_singleton, List.append_nil], rfl, rfl⟩
  | cons b bs =>
    refine ⟨[' ', ' '] ++ [' ', ' '].intercalate (b :: bs), ?_, rfl, ?_⟩
    · rw [List.intercalate_cons_cons, List.append_assoc]
    · rw [Text.inked_append]
      rfl

theorem drop_spread (hfits : ∀ p ∈ ws.zip cs, p.2.length ≤ p.1) (j : Nat) :
    (spread ws cs).drop ((ws.take j).map (· + 2)).sum = spread (ws.drop j) (cs.drop j) := by
  induction ws generalizing cs j with
  | nil => simp [spread_eq]
  | cons w ws ih =>
    cases cs with
    | nil => simp [spread_eq]
    | cons c cs =>
      cases j with
      | zero => rfl
      | succ j =>
        rw [List.zip_cons_cons, List.forall_mem_cons] at hfits
        obtain ⟨more, hspread, hmore, -⟩ := exists_spread_cons w ws c cs
        -- the first text takes its width, and the gap behind it two more
        have hfirst : (spread (w :: ws) (c :: cs)).drop (w + 2) = spread ws cs := by
          rw [hspread, ← List.drop_drop, List.drop_left' (Text.length_pad hfits.1), hmore]
        rw [List.take_succ_cons, List.map_cons, List.sum_cons, ← List.drop_drop, hfirst,
          ih hfits.2 j, List.drop_succ_cons, List.drop_succ_cons]

theorem take_drop_spread (hfits : ∀ p ∈ ws.zip cs, p.2.length ≤ p.1) (hw : ws[j]? = some w)
    (hc : cs[j]? = some c) :
    ((spread ws cs).drop ((ws.take j).map (· + 2)).sum).take w = pad w c := by
  have hle : c.length ≤ w :=
    hfits (w, c) (List.mem_of_getElem? (List.getElem?_zip_eq_some.mpr ⟨hw, hc⟩))
  obtain ⟨hj, rfl⟩ := List.getElem?_eq_some_iff.mp hw
  obtain ⟨hj', rfl⟩ := List.getElem?_eq_some_iff.mp hc
  obtain ⟨more, hspread, -, -⟩ :=
    exists_spread_cons ws[j] (ws.drop (j + 1)) cs[j] (cs.drop (j + 1))
  rw [drop_spread hfits, List.drop_eq_getElem_cons hj, List.drop_eq_getElem_cons hj', hspread,
    List.take_left' (Text.length_pad hle)]

theorem inked_spread (ws : List Nat) (cs : List (List Char)) :
    inked (spread ws cs) = inked (cs.take ws.length).flatten := by
  induction ws generalizing cs with
  | nil => rw [spread_eq]; rfl
  | cons w ws ih =>
    cases cs with
    | nil => rfl
    | cons c cs =>
      obtain ⟨more, hspread, -, hmore⟩ := exists_spread_cons w ws c cs
      rw [hspread, Text.inked_append, Text.inked_pad, hmore, ih, List.length_cons,
        List.take_succ_cons, List.flatten_cons, Text.inked_append]

theorem spread_take (hn : ws.length ≤ j) (cs : List (List Char)) :
    spread ws (cs.take j) = spread ws cs := by
  have hlength : (List.zipWith pad ws cs).length ≤ j := by
    rw [List.length_zipWith]
    omega
  calc spread ws (cs.take j)
      = [' ', ' '].intercalate (List.zipWith pad (ws.take j) (cs.take j)) := by
        rw [spread_eq, List.take_of_length_le hn]
    _ = [' ', ' '].intercalate ((List.zipWith pad ws cs).take j) := by rw [List.take_zipWith]
    _ = spread ws cs := by rw [List.take_of_length_le hlength, spread_eq]

end Spread

section Widths

theorem getElem?_widen (ws : List Nat) (cs : List (List Char)) (j : Nat) :
    (widen ws cs)[j]? = ws[j]?.map fun w => cs[j]?.elim w fun c => max w c.length := by
  induction ws generalizing cs j with
  | nil => cases cs <;> rfl
  | cons w ws ih =>
    cases cs with
    | nil => simp [widen]
    | cons c cs =>
      cases j with
      | zero => rfl
      | succ j => simpa [widen] using ih cs j

theorem getElem?_foldl_widen (rows : List (List String)) (ws : List Nat) (j : Nat) :
    ((rows.map fun r => r.map String.toList).foldl widen ws)[j]? =
      ws[j]?.map fun w => ((rows.filterMap fun r => r[j]?).map String.length).foldl max w := by
  induction rows generalizing ws with
  | nil => simp
  | cons row rows ih =>
    rw [List.map_cons, List.foldl_cons, ih, getElem?_widen, Option.map_map, List.getElem?_map,
      List.filterMap_cons]
    cases row[j]? with
    | none => rfl
    | some cell => rfl

theorem getElem?_widths {t : Table} {j : Nat} (hj : j < t.columns.length) :
    t.widths[j]? = some (t.columnWidth j) := by
  rw [widths, getElem?_foldl_widen, List.getElem?_map, List.getElem?_eq_getElem hj, columnWidth,
    column, texts, List.filterMap_cons, List.getElem?_map, List.getElem?_eq_getElem hj]
  simp only [Option.map_some, List.map_cons, List.max?_cons', Option.getD_some]

variable {t : Table} {row : List String} {text : String} {j k : Nat}

theorem widths_eq (t : Table) : t.widths = (List.range t.columns.length).map t.columnWidth := by
  refine List.ext_getElem? fun j => ?_
  by_cases hj : j < t.columns.length
  · rw [getElem?_widths hj, List.getElem?_map, List.getElem?_range hj, Option.map_some]
  · have hnone : t.columns[j]? = none := List.getElem?_eq_none_iff.mpr (not_lt.mp hj)
    rw [widths, getElem?_foldl_widen, List.getElem?_map, hnone, Option.map_none, Option.map_none,
      List.getElem?_eq_none_iff.mpr (by simpa using hj)]

theorem length_widths (t : Table) : t.widths.length = t.columns.length := by
  rw [widths_eq, List.length_map, List.length_range]

theorem length_le_columnWidth (hrow : row ∈ t.texts) (htext : row[j]? = some text) :
    text.length ≤ t.columnWidth j := by
  have hmem : text.length ∈ (t.column j).map String.length :=
    List.mem_map_of_mem (List.mem_filterMap.mpr ⟨row, hrow, htext⟩)
  rw [columnWidth]
  cases hmax : ((t.column j).map String.length).max? with
  | none => simp [List.max?_eq_none_iff.mp hmax] at hmem
  | some m => exact (List.max?_eq_some_iff.mp hmax).2 _ hmem

theorem offset_eq (hj : j ≤ t.columns.length) :
    t.offset j = 1 + ((t.widths.take j).map (· + 2)).sum := by
  rw [offset, widths_eq, ← List.map_take, List.take_range, Nat.min_eq_left hj, List.map_map]
  rfl

theorem offset_le_offset (h : j ≤ k) : t.offset j ≤ t.offset k := by
  induction h with
  | refl => exact le_rfl
  | step _ ih =>
    refine ih.trans ?_
    rw [offset, offset, List.range_succ, List.map_append, List.sum_append]
    omega

end Widths

section Lines

variable {t : Table} {row : List String} {text : String} {j : Nat}

theorem fits_of_mem_texts (hrow : row ∈ t.texts) :
    ∀ p ∈ t.widths.zip (row.map String.toList), p.2.length ≤ p.1 := by
  intro p hp
  obtain ⟨j, hj⟩ := List.mem_iff_getElem?.mp hp
  obtain ⟨hw, hc⟩ := List.getElem?_zip_eq_some.mp hj
  rw [List.getElem?_map, Option.map_eq_some_iff] at hc
  obtain ⟨text, htext, hc⟩ := hc
  have hlt : j < t.columns.length := by
    have hlength := (List.getElem?_eq_some_iff.mp hw).1
    rwa [length_widths] at hlength
  rw [getElem?_widths hlt, Option.some.injEq] at hw
  rw [← hw, ← hc]
  exact length_le_columnWidth hrow htext

theorem shown_of_mem_texts (hrow : row ∈ t.texts) (hj : j < t.columns.length)
    (htext : row[j]? = some text) :
    trimRight (t.place j (t.rowLine row)) = trimRight text.toList := by
  have hc : (row.map String.toList)[j]? = some text.toList := by
    rw [List.getElem?_map, htext, Option.map_some]
  calc trimRight (t.place j (t.rowLine row))
      = trimRight (((spread t.widths (row.map String.toList)).drop
          ((t.widths.take j).map (· + 2)).sum).take (t.columnWidth j)) := by
        rw [place, rowLine, line, offset_eq hj.le, Nat.add_comm, List.drop_succ_cons,
          Text.trimRight_take_drop_trimRight]
    _ = trimRight (pad (t.columnWidth j) text.toList) := by
        rw [take_drop_spread (fits_of_mem_texts hrow) (getElem?_widths hj) hc]
    _ = trimRight text.toList := Text.trimRight_pad _ _

theorem drop_rowLine_of_mem_texts (hrow : row ∈ t.texts)
    (hj : t.columns.length ≤ j ∨ row.length ≤ j) : (t.rowLine row).drop (t.offset j) = [] := by
  -- the texts on the line are as many as the shorter of the two lists has
  obtain ⟨n, hn⟩ : ∃ n, n = min t.columns.length row.length := ⟨_, rfl⟩
  have hnone : List.zipWith pad (t.widths.drop n) ((row.map String.toList).drop n) = [] := by
    rw [List.zipWith_eq_nil_iff, List.drop_eq_nil_iff, List.drop_eq_nil_iff, length_widths,
      List.length_map]
    omega
  have hend : (spread t.widths (row.map String.toList)).drop
      ((t.widths.take n).map (· + 2)).sum = [] := by
    rw [drop_spread (fits_of_mem_texts hrow), spread_eq, hnone]
    rfl
  have hlength := List.drop_eq_nil_iff.mp hend
  have htrim := Text.length_trimRight_le (spread t.widths (row.map String.toList))
  have hoffset := offset_eq (t := t) (show n ≤ t.columns.length by omega)
  have hmono : t.offset n ≤ t.offset j := offset_le_offset (by omega)
  rw [rowLine, line, List.drop_eq_nil_iff, List.length_cons]
  omega

theorem aligned_of_mem_texts (hrow : row ∈ t.texts) : t.Aligned row (t.rowLine row) where
  shown _ hj _ htext := shown_of_mem_texts hrow hj htext
  ends _ hj := drop_rowLine_of_mem_texts hrow hj
  inked := by
    rw [rowLine, line, Text.inked_cons_of_blank rfl, Text.inked_trimRight, inked_spread,
      length_widths, List.map_take]

theorem lines_eq (t : Table) : t.lines = t.texts.map t.rowLine := by
  have hheaders : (t.columns.map Column.header).map String.toList =
      t.columns.map fun c => c.header.toList := List.map_map
  rw [lines, cells, texts, List.map_cons, List.map_cons, List.map_map, rowLine, hheaders]
  rfl

end Lines

section Objects

variable {t : Table} {row : List String} {c : Column} {j : Nat}

theorem names_rowJson (hkeys : (t.columns.map Column.key).Nodup) (row : List String) :
    (((t.columns.zip row).map fun (c, cell) => (c.key, Json.string cell)).map Prod.fst).Nodup := by
  have hcolumns : (t.columns.zip row).map Prod.fst =
      t.columns.take (min t.columns.length row.length) := by
    rw [List.zip_eq_zip_take_min, List.map_fst_zip]
    simp
  have hnames : ((t.columns.zip row).map fun (c, cell) => (c.key, Json.string cell)).map Prod.fst =
      ((t.columns.zip row).map Prod.fst).map Column.key := by
    rw [List.map_map, List.map_map]
    rfl
  rw [hnames, hcolumns, List.map_take]
  exact hkeys.sublist (List.take_sublist _ _)

theorem key_ne_of_mem_zip (hkeys : (t.columns.map Column.key).Nodup)
    (hc : t.columns[j]? = some c) (hnone : row[j]? = none) :
    ∀ p ∈ t.columns.zip row, p.1.key ≠ c.key := by
  rintro ⟨d, cell⟩ hd hkey
  obtain ⟨k, hk⟩ := List.mem_iff_getElem?.mp hd
  obtain ⟨hkd, hkcell⟩ := List.getElem?_zip_eq_some.mp hk
  have hsame : (t.columns.map Column.key)[k]? = (t.columns.map Column.key)[j]? := by
    rw [List.getElem?_map, List.getElem?_map, hkd, hc, Option.map_some, Option.map_some]
    exact congrArg some hkey
  have hlt : k < (t.columns.map Column.key).length := by
    rw [List.length_map]
    exact (List.getElem?_eq_some_iff.mp hkd).1
  rw [(List.getElem?_inj hlt hkeys).mp hsame, hnone] at hkcell
  exact Option.some_ne_none _ hkcell.symm

theorem keyed_rowJson (hkeys : (t.columns.map Column.key).Nodup) (row : List String) :
    t.Keyed row (t.rowJson row) where
  ordered := Json.isOrdered_ofFields _
  named j c hc := by
    cases hcell : row[j]? with
    | some cell =>
      have hmem : (c, cell) ∈ t.columns.zip row :=
        List.mem_of_getElem? (List.getElem?_zip_eq_some.mpr ⟨hc, hcell⟩)
      exact Json.field?_ofFields_of_mem (names_rowJson hkeys row) (List.mem_map_of_mem hmem)
    | none =>
      -- no other column has this key, so no field takes its place
      refine Json.field?_ofFields_eq_none fun f hf => ?_
      obtain ⟨p, hp, rfl⟩ := List.mem_map.mp hf
      exact key_ne_of_mem_zip hkeys hc hcell p hp
  only name hname := by
    refine Json.field?_ofFields_eq_none fun f hf => ?_
    obtain ⟨⟨c, cell⟩, hc, rfl⟩ := List.mem_map.mp hf
    exact hname c (List.of_mem_zip hc).1

end Objects

section Cut

theorem column_cut (t : Table) {j : Nat} (hj : j < t.columns.length) :
    t.cut.column j = t.column j := by
  simp only [column, texts, cut, List.filterMap_cons, List.filterMap_map, Function.comp_def,
    List.getElem?_take_of_lt hj]

theorem widths_cut (t : Table) : t.cut.widths = t.widths := by
  rw [widths_eq, widths_eq]
  refine List.map_congr_left fun j hj => ?_
  rw [columnWidth, columnWidth, column_cut t (List.mem_range.mp hj)]

theorem rowLine_cut (t : Table) (row : List String) :
    t.cut.rowLine (row.take t.columns.length) = t.rowLine row := by
  rw [rowLine, rowLine, line, line, widths_cut, List.map_take, spread_take (length_widths t).le]

theorem lines_cut (t : Table) : t.cut.lines = t.lines := by
  have hheaders : t.cut.rowLine (t.columns.map Column.header) =
      t.rowLine (t.columns.map Column.header) := by
    rw [rowLine, rowLine, widths_cut]
  have hrows : (t.rows.map (List.take t.columns.length)).map t.cut.rowLine =
      t.rows.map t.rowLine := by
    rw [List.map_map]
    exact List.map_congr_left fun row _ => rowLine_cut t row
  rw [lines_eq, lines_eq, texts, texts, List.map_cons, List.map_cons, ← hheaders, ← hrows]
  rfl

theorem rowJson_cut (t : Table) (row : List String) :
    t.cut.rowJson (row.take t.columns.length) = t.rowJson row := by
  have hzip : t.columns.zip (row.take t.columns.length) = t.columns.zip row := by
    rw [List.zip_eq_zip_take_min, @List.zip_eq_zip_take_min _ _ t.columns row, List.length_take,
      List.take_take]
    simp
  rw [rowJson, rowJson, cut, hzip]

theorem toJson_cut (t : Table) : t.cut.toJson = t.toJson := by
  rw [toJson, toJson, cut, List.map_map]
  exact congrArg Json.array (List.map_congr_left fun row _ => rowJson_cut t row)

end Cut

/-- The cells of a row stand under their columns, both on its line and in its object. The cells beyond the
columns make no difference to either. -/
theorem lines_agree_with_objects (t : Table) (hkeys : (t.columns.map Column.key).Nodup) :
    ∃ lines objects,
      (Output.table t).lines? = some lines ∧
      (Output.table t).toJson? = some (.array objects) ∧
      List.Forall₂ t.Aligned (t.columns.map Column.header :: t.rows) lines ∧
      List.Forall₂ t.Keyed t.rows objects ∧
      t.cut.lines = lines ∧ t.cut.toJson = .array objects := by
  refine ⟨t.lines, t.rows.map t.rowJson, rfl, rfl, ?_, ?_, lines_cut t, toJson_cut t⟩
  · rw [lines_eq, List.forall₂_map_right_iff]
    exact List.forall₂_same.mpr fun row hrow => aligned_of_mem_texts hrow
  · rw [List.forall₂_map_right_iff]
    exact List.forall₂_same.mpr fun row _ => keyed_rowJson hkeys row

theorem lines_agree_with_objects_ragged :
    let t : Table := ⟨[⟨"uuid", "UUID"⟩, ⟨"title", "Title"⟩, ⟨"state", "State"⟩],
      [["0001", "database  ", "", "beyond"], ["0002", " é"]]⟩
    (t.columns.map Column.key).Nodup ∧
      t.lines = [" UUID  Title       State", " 0001  database", " 0002   é"].map String.toList ∧
      List.Forall₂ t.Aligned (t.columns.map Column.header :: t.rows) t.lines ∧
      List.Forall₂ t.Keyed t.rows (t.rows.map t.rowJson) := by
  intro t
  have hkeys : (t.columns.map Column.key).Nodup := by decide
  obtain ⟨lines, objects, hlines, hobjects, haligned, hkeyed, -⟩ := lines_agree_with_objects t hkeys
  obtain rfl : t.lines = lines := Option.some.inj hlines
  obtain rfl : t.rows.map t.rowJson = objects := Json.array.inj (Option.some.inj hobjects)
  exact ⟨hkeys, by decide, haligned, hkeyed⟩

end Muster.Table
