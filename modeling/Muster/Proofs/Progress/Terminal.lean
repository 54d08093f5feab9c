import Mathlib.Data.List.GetD
import Muster.Progress.Style
import Muster.Text.Blank

/-! A terminal: rows of cells without end, a cursor, and what characters written to it do. Main
statements: text without control characters is laid over the cells from the cursor on, and colours
change nothing. -/

namespace Muster.Progress

inductive Scan where
  | text
  | escape
  | control (parameters : List Char)
  deriving DecidableEq, Repr

structure Terminal where
  cell : Nat → Nat → Char := fun _ _ => ' '
  row : Nat := 0
  column : Nat := 0
  scan : Scan := .text

namespace Terminal

def newLine (t : Terminal) : Terminal := { t with row := t.row + 1, column := 0 }

/-- Writes a character over the cell of the cursor, or the first one of the next row if there is none
left in this one. -/
def put (columns : Nat) (t : Terminal) (c : Char) : Terminal :=
  let t := if t.column < columns then t else t.newLine
  { t with
    cell := fun r k => if r = t.row ∧ k = t.column then c else t.cell r k
    column := t.column + 1 }

def eraseRow (t : Terminal) : Terminal :=
  { t with cell := fun r k => if r = t.row then ' ' else t.cell r k }

def moveUp (t : Terminal) : Terminal := { t with row := t.row - 1 }

def obey (parameters : List Char) (final : Char) (t : Terminal) : Terminal :=
  if final = 'K' ∧ parameters = ['2'] then t.eraseRow
  else if final = 'A' ∧ parameters = ['1'] then t.moveUp
  else t

def isParameter (c : Char) : Bool := c.isDigit || c == ';'

def read (columns : Nat) (t : Terminal) (c : Char) : Terminal :=
  match t.scan with
  | .text =>
    if c = '\x1b' then { t with scan := .escape }
    else if c = '\r' then { t with column := 0 }
    else if c = '\n' then t.newLine
    else t.put columns c
  | .escape => { t with scan := if c = '[' then .control [] else .text }
  | .control parameters =>
    if isParameter c then { t with scan := .control (parameters ++ [c]) }
    else { t with scan := .text }.obey parameters c

def feed (columns : Nat) (t : Terminal) (text : List Char) : Terminal :=
  text.foldl (read columns) t

def IsVisible (c : Char) : Prop := c ≠ '\x1b' ∧ c ≠ '\r' ∧ c ≠ '\n'

instance (c : Char) : Decidable (IsVisible c) := inferInstanceAs (Decidable (_ ∧ _))

def write (t : Terminal) (line : List Char) : Terminal :=
  { t with
    cell := fun r k =>
      if r = t.row ∧ t.column ≤ k then line.getD (k - t.column) (t.cell r k) else t.cell r k
    column := t.column + line.length }

def lay (t : Terminal) : List (List Char) → Terminal
  | [] => t
  | l :: ls => (t.write l).newLine.lay ls

variable {columns : Nat} {t : Terminal}

theorem feed_append (xs ys : List Char) :
    feed columns t (xs ++ ys) = feed columns (feed columns t xs) ys := List.foldl_append

theorem read_visible {c : Char} (ht : t.scan = .text) (hc : IsVisible c) :
    t.read columns c = t.put columns c := by
  simp [read, ht, hc.1, hc.2.1, hc.2.2]

theorem write_nil (t : Terminal) : t.write [] = t := by
  simp [write]

theorem write_put {c : Char} (line : List Char) (hfit : t.column < columns) :
    (t.put columns c).write line = t.write (c :: line) := by
  simp only [put, hfit, if_true, write, Terminal.mk.injEq, List.length_cons, true_and, and_true]
  refine ⟨?_, by omega⟩
  funext r k
  by_cases hr : r = t.row
  · by_cases hk : k = t.column
    · simp [hr, hk, show ¬ t.column + 1 ≤ t.column by omega]
    · by_cases hle : t.column ≤ k
      · obtain ⟨d, rfl⟩ : ∃ d, k = t.column + 1 + d := ⟨k - (t.column + 1), by omega⟩
        simp [hr, hk, hle, show t.column + 1 + d - t.column = d + 1 by omega]
      · simp [hr, hk, hle, show ¬ t.column + 1 ≤ k by omega]
  · simp [hr]

theorem feed_newline (ht : t.scan = .text) : feed columns t ['\n'] = t.newLine := by
  simp [feed, read, ht]

theorem feed_return (ht : t.scan = .text) : feed columns t ['\r'] = { t with column := 0 } := by
  simp [feed, read, ht]

theorem feed_parameters {read parameters : List Char} (ht : t.scan = .control read)
    (hp : ∀ c ∈ parameters, isParameter c = true) :
    feed columns t parameters = { t with scan := .control (read ++ parameters) } := by
  induction parameters generalizing t read with
  | nil => simp [feed, ← ht]
  | cons p ps ih =>
    have hone : t.read columns p = { t with scan := .control (read ++ [p]) } := by
      simp [Terminal.read, ht, hp p (by simp)]
    change feed columns (t.read columns p) ps = _
    rw [hone, @ih _ (read ++ [p]) rfl fun c hc => hp c (by simp [hc])]
    simp

theorem feed_sequence {parameters : List Char} {final : Char} (ht : t.scan = .text)
    (hp : ∀ c ∈ parameters, isParameter c = true) (hf : isParameter final = false) :
    feed columns t ('\x1b' :: '[' :: (parameters ++ [final])) = t.obey parameters final := by
  have hopen : feed columns t ['\x1b', '['] = { t with scan := .control [] } := by
    simp [feed, read, ht]
  change feed columns t (['\x1b', '['] ++ (parameters ++ [final])) = _
  rw [feed_append, hopen, feed_append, feed_parameters rfl hp]
  have ht : { t with scan := .text } = t := by rw [← ht]
  simp [feed, read, hf, ht]

theorem feed_colour {parameters : List Char} (ht : t.scan = .text)
    (hp : ∀ c ∈ parameters, isParameter c = true) :
    feed columns t ('\x1b' :: '[' :: (parameters ++ ['m'])) = t := by
  rw [feed_sequence ht hp (by decide)]
  simp [obey]

/-- A line with colour sequences anywhere in it. -/
inductive Painted : List Char → List Char → Prop where
  | nil : Painted [] []
  | visible {c : Char} {text line : List Char} :
    IsVisible c → Painted text line → Painted (c :: text) (c :: line)
  | colour {parameters text line : List Char} : (∀ c ∈ parameters, isParameter c = true) →
    Painted text line → Painted ('\x1b' :: '[' :: (parameters ++ 'm' :: text)) line

theorem Painted.of_visible {line : List Char} (h : ∀ c ∈ line, IsVisible c) :
    Painted line line := by
  induction line with
  | nil => exact .nil
  | cons c cs ih => exact .visible (h c (by simp)) (ih fun d hd => h d (by simp [hd]))

theorem Painted.switch (parameters : List Char)
    (hp : ∀ c ∈ parameters, isParameter c = true) :
    Painted ('\x1b' :: '[' :: (parameters ++ ['m'])) [] :=
  .colour hp .nil

theorem Painted.append {text text' line line' : List Char} (h : Painted text line)
    (h' : Painted text' line') : Painted (text ++ text') (line ++ line') := by
  induction h with
  | nil => exact h'
  | visible hc _ ih => exact .visible hc ih
  | colour hp _ ih => simpa using Painted.colour hp ih

theorem feed_painted {text line : List Char} (h : Painted text line) (ht : t.scan = .text)
    (hfit : t.column + line.length ≤ columns) : feed columns t text = t.write line := by
  induction h generalizing t with
  | nil => exact (write_nil t).symm
  | @visible c text line hc _ ih =>
    simp only [List.length_cons] at hfit
    have hput : t.put columns c = { t with
        cell := fun r k => if r = t.row ∧ k = t.column then c else t.cell r k
        column := t.column + 1 } := by
      simp only [put, show t.column < columns by omega, if_true]
    change feed columns (t.read columns c) text = _
    rw [read_visible ht hc, ih (by simp [hput, ht]) (by simp only [hput]; omega),
      write_put line (by omega)]
  | @colour parameters text line hp _ ih =>
    have hsplit : '\x1b' :: '[' :: (parameters ++ 'm' :: text) =
        ('\x1b' :: '[' :: (parameters ++ ['m'])) ++ text := by simp
    rw [hsplit, feed_append, feed_colour ht hp, ih ht hfit]

theorem Painted.digits {n : Nat} {c : Char} (hc : c ∈ (toString n).toList) :
    c.isDigit = true := by
  have hc : c ∈ Nat.toDigits 10 n := by simpa [Nat.toList_repr] using hc
  exact Nat.isDigit_of_mem_toDigits (by decide) (by decide) hc

theorem Painted.choose (p : Palette) (colour : Nat) : Painted (p.choose colour).toList [] := by
  cases p with
  | plain => exact .nil
  | colours =>
    have hp : ∀ c ∈ "38;5;".toList ++ (toString colour).toList, isParameter c = true := by
      intro c hc
      rcases List.mem_append.mp hc with hc | hc
      · have h38 : ∀ c ∈ "38;5;".toList, isParameter c = true := by simp [isParameter]
        exact h38 c hc
      · simp [isParameter, Painted.digits hc]
    simpa [Palette.choose, sequence] using Painted.colour hp .nil
  | muted =>
    simpa [Palette.choose, sequence] using Painted.switch [] (by simp)

theorem Painted.release (p : Palette) : Painted p.release.toList [] := by
  cases p with
  | plain => exact .nil
  | colours => exact .switch ['3', '9'] (by simp [isParameter])
  | muted => exact .switch [] (by simp)

theorem Painted.paint {line : List Char} (p : Palette) (colour : Nat)
    (h : ∀ c ∈ line, IsVisible c) :
    Painted (p.paint colour (String.ofList line)).toList line := by
  simpa [Palette.paint] using
    ((Painted.choose p colour).append (.of_visible h)).append (Painted.release p)

theorem Painted.paintBold {line : List Char} (p : Palette) (colour : Nat)
    (h : ∀ c ∈ line, IsVisible c) :
    Painted (p.paintBold colour (String.ofList line)).toList line := by
  have hbold : Painted (sequence "1m").toList [] := .switch ['1'] (by simp [isParameter])
  have hreset : Painted (sequence "0m").toList [] := .switch ['0'] (by simp [isParameter])
  have hcoloured := (((Painted.choose p colour).append hbold).append (.of_visible h)).append hreset
  cases p with
  | plain => simpa [Palette.paintBold] using Painted.of_visible h
  | _ => simpa [Palette.paintBold] using hcoloured

@[simp] theorem lay_scan (t : Terminal) (ls : List (List Char)) : (t.lay ls).scan = t.scan := by
  induction ls generalizing t with
  | nil => rfl
  | cons l ls ih => exact ih _

@[simp] theorem lay_row (t : Terminal) (ls : List (List Char)) :
    (t.lay ls).row = t.row + ls.length := by
  induction ls generalizing t with
  | nil => rfl
  | cons l ls ih =>
    rw [lay, ih]
    simp only [newLine, write, List.length_cons]
    omega

theorem lay_column {t : Terminal} (ht : t.column = 0) (ls : List (List Char)) :
    (t.lay ls).column = 0 := by
  induction ls generalizing t with
  | nil => exact ht
  | cons l ls ih => exact ih rfl

theorem lay_cell {t : Terminal} (ht : t.column = 0) (ls : List (List Char)) (r k : Nat) :
    (t.lay ls).cell r k =
      if t.row ≤ r ∧ r < t.row + ls.length then (ls.getD (r - t.row) []).getD k (t.cell r k)
      else t.cell r k := by
  induction ls generalizing t with
  | nil =>
    have : ¬ (t.row ≤ r ∧ r < t.row) := by omega
    simp [lay, this]
  | cons l ls ih =>
    have hfirst : (t.write l).newLine.cell r k =
        if r = t.row then l.getD k (t.cell r k) else t.cell r k := by
      simp [newLine, write, ht]
    have hrow : (t.write l).newLine.row = t.row + 1 := rfl
    rw [lay, ih rfl, hfirst, hrow]
    by_cases hr : r = t.row
    · simp [hr, show ¬ t.row + 1 ≤ t.row by omega]
    · by_cases hle : t.row ≤ r
      · obtain ⟨d, rfl⟩ : ∃ d, r = t.row + 1 + d := ⟨r - (t.row + 1), by omega⟩
        have hd : (t.row + 1 ≤ t.row + 1 + d ∧ t.row + 1 + d < t.row + 1 + ls.length) ↔
            (t.row ≤ t.row + 1 + d ∧ t.row + 1 + d < t.row + (l :: ls).length) := by
          simp only [List.length_cons]
          omega
        simp only [hd, show t.row + 1 + d - t.row = d + 1 by omega, List.getD_cons_succ, hr,
          if_false, Nat.add_sub_cancel_left]
      · simp [hr, hle, show ¬ t.row + 1 ≤ r by omega]

/-- A text of whole lines, with colour sequences anywhere in them. -/
inductive Sheet : List Char → List (List Char) → Prop where
  | nil : Sheet [] []
  | line {text line rest : List Char} {ls : List (List Char)} :
    Painted text line → Sheet rest ls → Sheet (text ++ '\n' :: rest) (line :: ls)

theorem Sheet.single {text line : List Char} (h : Painted text line) :
    Sheet (text ++ ['\n']) [line] := .line h .nil

theorem Sheet.append {text text' : List Char} {ls ls' : List (List Char)} (h : Sheet text ls)
    (h' : Sheet text' ls') : Sheet (text ++ text') (ls ++ ls') := by
  induction h with
  | nil => exact h'
  | line hp _ ih => simpa using Sheet.line hp ih

theorem Sheet.flatMap {ι : Type} (ids : List ι) {text : ι → List Char}
    {lines : ι → List (List Char)} (h : ∀ i ∈ ids, Sheet (text i) (lines i)) :
    Sheet (ids.flatMap text) (ids.flatMap lines) := by
  induction ids with
  | nil => exact .nil
  | cons i is ih => exact (h i (by simp)).append (ih fun j hj => h j (by simp [hj]))

theorem feed_sheet {text : List Char} {ls : List (List Char)} (h : Sheet text ls)
    (ht : t.scan = .text) (hc : t.column = 0) (hfit : ∀ l ∈ ls, l.length ≤ columns) :
    feed columns t text = t.lay ls := by
  induction h generalizing t with
  | nil => rfl
  | @line text line rest ls hp _ ih =>
    have hline := hfit line (by simp)
    have hwrite : feed columns t text = t.write line := feed_painted hp ht (by omega)
    rw [feed_append, hwrite]
    change feed columns (feed columns (t.write line) ['\n']) rest = _
    rw [feed_newline (by simp [write, ht])]
    exact ih (by simp [newLine, write, ht]) rfl fun l hl => hfit l (by simp [hl])

theorem feed_eraseLine (ht : t.scan = .text) :
    feed columns t eraseLine.toList = t.eraseRow.moveUp := by
  have h : eraseLine.toList =
      ('\x1b' :: '[' :: (['2'] ++ ['K'])) ++ ('\x1b' :: '[' :: (['1'] ++ ['A'])) := rfl
  have herase : t.obey ['2'] 'K' = t.eraseRow := by simp [obey]
  have hscan : t.eraseRow.scan = .text := ht
  rw [h, feed_append, feed_sequence ht (by simp [isParameter]) (by decide), herase,
    feed_sequence hscan (by simp [isParameter]) (by decide)]
  simp [obey]

theorem feed_eraseLines {rows : Nat} (ht : t.scan = .text) (hrows : rows ≤ t.row) :
    feed columns t ((List.replicate rows eraseLine).flatMap String.toList) =
      { t with
        cell := fun r k => if t.row - rows < r ∧ r ≤ t.row then ' ' else t.cell r k
        row := t.row - rows } := by
  induction rows generalizing t with
  | zero =>
    have : ∀ r, ¬ (t.row < r ∧ r ≤ t.row) := by omega
    simp [feed, this]
  | succ n ih =>
    have hmove : t.eraseRow.moveUp.row = t.row - 1 := rfl
    rw [List.replicate_succ, List.flatMap_cons, feed_append, feed_eraseLine ht,
      ih (by exact ht) (by rw [hmove]; omega)]
    simp only [Terminal.mk.injEq, moveUp, eraseRow, and_true]
    refine ⟨?_, by omega⟩
    funext r k
    by_cases hr : r = t.row
    · simp [hr, show t.row - (n + 1) < t.row by omega]
    · have : (t.row - 1 - n < r ∧ r ≤ t.row - 1) ↔ (t.row - (n + 1) < r ∧ r ≤ t.row) := by omega
      simp only [this, hr, if_false]

end Terminal

end Muster.Progress
