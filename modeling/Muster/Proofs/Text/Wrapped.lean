import Mathlib.Data.List.Forall2
import Muster.Proofs.Text.Blank

/-! Texts broken into lines. Main statement: the lines hold the words of the text in order, each of them
whole unless it is longer than a line, and a line ends only where the next word would not have fitted. -/

namespace Muster.Text

/-- Some characters of a word: those from a place on, as many as a line has room for. -/
structure Part where
  word : List Char
  start : Nat
  deriving DecidableEq, Repr

def Part.text (width : Nat) (p : Part) : List Char := (p.word.drop p.start).take width

/-- The parts of a word that begin at its multiples of the width. -/
def parts (width : Nat) (word : List Char) : List Part :=
  ((List.range word.length).filter (width ∣ ·)).map fun start => ⟨word, start⟩

section Parts

variable {width : Nat} {word : List Char} {p : Part}

theorem mem_parts : p ∈ parts width word ↔
    p.word = word ∧ p.start < word.length ∧ width ∣ p.start := by
  simp only [parts, List.mem_map, List.mem_filter, List.mem_range, decide_eq_true_eq]
  constructor
  · rintro ⟨start, ⟨hlt, hdvd⟩, rfl⟩
    exact ⟨rfl, hlt, hdvd⟩
  · rintro ⟨rfl, hlt, hdvd⟩
    exact ⟨p.start, ⟨hlt, hdvd⟩, rfl⟩

theorem parts_pairwise (width : Nat) (word : List Char) :
    (parts width word).Pairwise fun p q => p.start < q.start := by
  rw [parts, List.pairwise_map]
  exact List.pairwise_lt_range.filter _

theorem text_ne_nil (hwidth : 0 < width) (h : p ∈ parts width word) : p.text width ≠ [] := by
  obtain ⟨rfl, hlt, -⟩ := mem_parts.mp h
  rw [Part.text, ← List.length_pos_iff, List.length_take, List.length_drop]
  omega

theorem starts_of_le {n : Nat} (hpos : 0 < n) (hle : n ≤ width) :
    (List.range n).filter (width ∣ ·) = [0] := by
  obtain ⟨n, rfl⟩ : ∃ m, n = m + 1 := ⟨n - 1, by omega⟩
  rw [List.range_succ_eq_map, List.filter_cons_of_pos (by simp), List.filter_eq_nil_iff.mpr]
  intro k hk hdvd
  obtain ⟨m, hm, rfl⟩ := List.mem_map.mp hk
  have hlt := List.mem_range.mp hm
  exact Nat.not_dvd_of_pos_of_lt (Nat.succ_pos m) (by omega) (of_decide_eq_true hdvd)

theorem parts_of_le (hword : word ≠ []) (hle : word.length ≤ width) :
    parts width word = [⟨word, 0⟩] := by
  rw [parts, starts_of_le (List.length_pos_iff.mpr hword) hle, List.map_singleton]

theorem starts_of_lt {n : Nat} (hwidth : 0 < width) (hlt : width < n) :
    (List.range n).filter (width ∣ ·) =
      0 :: ((List.range (n - width)).filter (width ∣ ·)).map (width + ·) := by
  obtain ⟨more, rfl⟩ : ∃ more, n = width + more := ⟨n - width, by omega⟩
  have hshift : (List.range more).filter ((width ∣ ·) ∘ (width + ·)) =
      (List.range more).filter (width ∣ ·) :=
    List.filter_congr fun k _ => decide_eq_decide.mpr (Nat.dvd_add_right (Nat.dvd_refl width))
  rw [List.range_add, List.filter_append, starts_of_le hwidth (Nat.le_refl _), List.filter_map,
    hshift, Nat.add_sub_cancel_left]
  rfl

theorem texts_parts (hwidth : 0 < width) (hword : word ≠ []) :
    (parts width word).map (Part.text width) = (chop width word).1 ++ [(chop width word).2] := by
  fun_induction chop width word with
  | case1 word hle =>
    have hle : word.length ≤ width := by omega
    rw [parts_of_le hword hle]
    simp [Part.text, List.take_of_length_le hle]
  | case2 word hlt pieces last hchop ih =>
    have hlt : width < word.length := by omega
    have hrest : word.drop width ≠ [] := by
      rw [← List.length_pos_iff, List.length_drop]
      omega
    -- the parts of the rest are those of the word but the first, with the width off their places
    have hparts := ih hrest
    rw [hchop, parts, List.length_drop, List.map_map] at hparts
    rw [parts, starts_of_lt hwidth hlt, List.map_cons, List.map_cons, List.map_map, List.map_map,
      List.cons_append, ← hparts]
    simp [Part.text, Function.comp_def, List.drop_drop]

theorem parts_ne_nil (hwidth : 0 < width) (hword : word ≠ []) : parts width word ≠ [] := by
  intro hnil
  have htexts := texts_parts hwidth hword
  simp [hnil] at htexts

theorem word_of_head (hwidth : 0 < width) (hword : word ≠ []) {rest : List (List Char)}
    (h : p ∈ ((word :: rest).flatMap (parts width)).head?) : p.word = word := by
  rw [List.flatMap_cons, List.head?_append_of_ne_nil _ (parts_ne_nil hwidth hword)] at h
  exact (mem_parts.mp (List.mem_of_mem_head? h)).1

/-- All pieces but the last fill a line, and the last is not empty. -/
theorem chop_spec (hwidth : 0 < width) (hword : word ≠ []) :
    (∀ l ∈ (chop width word).1, l.length = width) ∧ (chop width word).2 ≠ [] ∧
      (chop width word).2.length ≤ width ∧
      (chop width word).1.flatten ++ (chop width word).2 = word := by
  fun_induction chop width word with
  | case1 word hle =>
    have hle : word.length ≤ width := by omega
    exact ⟨by simp, hword, hle, rfl⟩
  | case2 word hlt pieces last hchop ih =>
    have hrest : word.drop width ≠ [] := by
      rw [← List.length_pos_iff, List.length_drop]
      omega
    obtain ⟨hfull, hlast, hle, hword'⟩ := ih hrest
    rw [hchop] at hfull hlast hle hword'
    refine ⟨List.forall_mem_cons.mpr ⟨?_, hfull⟩, hlast, hle, ?_⟩
    · rw [List.length_take]
      omega
    · rw [List.flatten_cons, List.append_assoc, hword', List.take_append_drop]

end Parts

/-- The line with the given parts on it. -/
def spread (width : Nat) (row : List Part) : List Char :=
  [' '].intercalate (row.map (Part.text width))

/-- What is on a line fits there. What was cut off a word that fits on no line comes first. -/
structure Holds (width : Nat) (row : List Part) : Prop where
  fits : (spread width row).length ≤ width
  long_first : ∀ p ∈ row.tail, p.word.length ≤ width

/-- The parts are on the lines in order. Between two words a line ends only where the second would not
have fitted. A line is empty only where there are no words, and then it is the only one. -/
structure Arranged (width : Nat) (ps : List Part) (rows : List (List Part)) : Prop where
  order : rows.flatten = ps
  holds : ∀ row ∈ rows, Holds width row
  breaks : rows.IsChain fun row next => ∀ p ∈ next.head?, p.start = 0 →
    width < (spread width row).length + 1 + p.word.length
  empty : if ps = [] then rows = [[]] else [] ∉ rows

section Rows

variable {width : Nat} {row : List Part} {p : Part}

@[simp] theorem spread_nil (width : Nat) : spread width [] = [] := rfl

@[simp] theorem spread_singleton (width : Nat) (p : Part) : spread width [p] = p.text width :=
  List.intercalate_singleton

theorem spread_cons (hrow : row ≠ []) : spread width (p :: row) =
    p.text width ++ ' ' :: spread width row := by
  obtain ⟨q, row, rfl⟩ := List.exists_cons_of_ne_nil hrow
  simp [spread, List.intercalate_cons_cons]

theorem spread_concat (hrow : row ≠ []) : spread width (row ++ [p]) =
    spread width row ++ ' ' :: p.text width := by
  induction row with
  | nil => exact absurd rfl hrow
  | cons q row ih =>
    by_cases hrest : row = []
    · rw [hrest, List.singleton_append, spread_cons (List.cons_ne_nil p []), spread_singleton,
        spread_singleton]
    · rw [List.cons_append, spread_cons (by simp), ih hrest, spread_cons hrest, List.append_assoc]
      rfl

theorem spread_ne_nil (hrow : row ≠ []) (htext : ∀ p ∈ row, p.text width ≠ []) :
    spread width row ≠ [] := by
  obtain ⟨p, row, rfl⟩ := List.exists_cons_of_ne_nil hrow
  have hp := htext p List.mem_cons_self
  by_cases hrest : row = []
  · rwa [hrest, spread_singleton]
  · simp [spread_cons hrest]

theorem inked_spread (width : Nat) (row : List Part) :
    inked (spread width row) = inked (row.flatMap (Part.text width)) := by
  induction row with
  | nil => rfl
  | cons p row ih =>
    by_cases hrest : row = []
    · simp [hrest]
    · rw [spread_cons hrest, List.flatMap_cons, inked_append, inked_append,
        inked_cons_of_blank rfl, ih]

theorem trimRight_spread
    (h : ∀ p ∈ row, p.text width ≠ [] ∧ ∀ c ∈ p.text width, isBlank c = false) :
    trimRight (spread width row) = spread width row := by
  induction row with
  | nil => rfl
  | cons p row ih =>
    have hrest : ∀ q ∈ row, q.text width ≠ [] ∧ ∀ c ∈ q.text width, isBlank c = false :=
      fun q hq => h q (List.mem_cons_of_mem p hq)
    by_cases hnil : row = []
    · rw [hnil, spread_singleton]
      exact trimRight_of_not_blank (h p List.mem_cons_self).2
    · rw [spread_cons hnil, List.append_cons]
      exact trimRight_append (spread_ne_nil hnil fun q hq => (hrest q hq).1) (ih hrest) _

theorem blank_of_mem_spread (h : ∀ p ∈ row, ∀ c ∈ p.text width, isBlank c = false) :
    ∀ c ∈ spread width row, c = ' ' ∨ isBlank c = false := by
  induction row with
  | nil => simp
  | cons p row ih =>
    have hp := h p List.mem_cons_self
    by_cases hnil : row = []
    · rw [hnil, spread_singleton]
      exact fun c hc => .inr (hp c hc)
    · rw [spread_cons hnil, List.forall_mem_append, List.forall_mem_cons]
      exact ⟨fun c hc => .inr (hp c hc), .inl rfl, ih fun q hq => h q (List.mem_cons_of_mem p hq)⟩

theorem Holds.singleton (hfits : (p.text width).length ≤ width) : Holds width [p] :=
  ⟨by rwa [spread_singleton], by simp⟩

theorem Holds.concat (h : Holds width row) (hrow : row ≠ []) (hword : p.word.length ≤ width)
    (hfits : (spread width (row ++ [p])).length ≤ width) : Holds width (row ++ [p]) := by
  refine ⟨hfits, fun q hq => ?_⟩
  rw [List.tail_append_of_ne_nil hrow] at hq
  rcases List.mem_append.mp hq with hq | hq
  · exact h.long_first q hq
  · rwa [List.mem_singleton.mp hq]

theorem length_text_le (width : Nat) (p : Part) : (p.text width).length ≤ width := by
  rw [Part.text, List.length_take]
  omega

namespace Arranged

variable {ps : List Part} {rows : List (List Part)}

theorem rows_ne_nil (h : Arranged width ps rows) : rows ≠ [] := by
  rintro rfl
  have hempty := h.empty
  simp [← h.order] at hempty

theorem cons (h : Arranged width ps rows) (hps : ps ≠ []) (hrow : Holds width row)
    (hne : row ≠ []) (hbreak : ∀ p ∈ ps.head?, p.start = 0 →
      width < (spread width row).length + 1 + p.word.length) :
    Arranged width (row ++ ps) (row :: rows) := by
  have hempty := h.empty
  rw [if_neg hps] at hempty
  refine ⟨by rw [List.flatten_cons, h.order], List.forall_mem_cons.mpr ⟨hrow, h.holds⟩, ?_, ?_⟩
  · obtain ⟨next, rows, rfl⟩ := List.exists_cons_of_ne_nil h.rows_ne_nil
    refine List.isChain_cons_cons.mpr ⟨fun p hp => hbreak p ?_, h.breaks⟩
    rw [← h.order, List.flatten_cons, List.head?_append]
    simp [Option.mem_def.mp hp]
  · rw [if_neg (by simp [hne])]
    simp only [List.mem_cons, not_or]
    exact ⟨hne.symm, hempty⟩

theorem singles {first : List Part} {last : Part}
    (hsorted : (first ++ [last]).Pairwise fun p q => p.start < q.start)
    (h : Arranged width (last :: ps) rows) :
    Arranged width (first ++ last :: ps) (first.map ([·]) ++ rows) := by
  induction first with
  | nil => exact h
  | cons p first ih =>
    rw [List.cons_append, List.pairwise_cons] at hsorted
    -- what comes next is of the same word, and not its beginning
    refine (ih hsorted.2).cons (by simp) (.singleton (length_text_le width p)) (by simp) ?_
    intro q hq hstart
    have hlater : q ∈ first ++ [last] := by
      cases first with
      | nil =>
        obtain rfl : last = q := by simpa using hq
        exact List.mem_cons_self
      | cons r first =>
        obtain rfl : r = q := by simpa using hq
        exact List.mem_cons_self
    have hlt := hsorted.1 q hlater
    omega

end Arranged

end Rows

section Filling

variable {width : Nat} {word current : List Char} {rest : List (List Char)}

theorem fill_nil_cons (width : Nat) (word : List Char) (rest : List (List Char)) :
    fill width (word :: rest) [] =
      (chop width word).1 ++ fill width rest (chop width word).2 := rfl

theorem fill_of_fits (hcurrent : current ≠ []) (hfits : current.length + 1 + word.length ≤ width) :
    fill width (word :: rest) current = fill width rest (current ++ ' ' :: word) := by
  rw [fill, if_neg (by simpa using hcurrent), if_pos hfits]

theorem fill_of_not_fits (hcurrent : current ≠ [])
    (hfits : ¬ current.length + 1 + word.length ≤ width) :
    fill width (word :: rest) current = current :: fill width (word :: rest) [] := by
  rw [fill, if_neg (by simpa using hcurrent), if_neg hfits]
  rfl

/-- What is left after a line has been put out, or nothing if the word goes on the current line. -/
def turn? (width : Nat) : List Char × List Char → Option (List Char × List Char × List Char)
  | (current, word) =>
    if current = [] then
      if word.length ≤ width then none else some (word.take width, [], word.drop width)
    else if current.length + 1 + word.length ≤ width then none
    else some (current, [], word)

theorem fill_turn (hwidth : 0 < width) (word : List Char) (rest : List (List Char))
    (current : List Char) :
    fill width (word :: rest) current =
      match turn? width (current, word) with
      | none => fill width rest (if current = [] then word else current ++ ' ' :: word)
      | some (line, current', word') => line :: fill width (word' :: rest) current' := by
  by_cases hcurrent : current = []
  · subst hcurrent
    by_cases hfits : word.length ≤ width
    · have hchop : chop width word = ([], word) := by rw [chop, dif_pos (.inr hfits)]
      simp [turn?, hfits, fill_nil_cons, hchop]
    · have hchop : chop width word =
          (word.take width :: (chop width (word.drop width)).1, (chop width (word.drop width)).2) := by
        rw [chop, dif_neg (by omega)]
      simp [turn?, hfits, fill_nil_cons, hchop]
  · by_cases hfits : current.length + 1 + word.length ≤ width
    · simp [turn?, hcurrent, hfits, fill_of_fits hcurrent hfits]
    · simp [turn?, hcurrent, hfits, fill_of_not_fits hcurrent hfits]

theorem turn_decreases (hwidth : 0 < width) {state next : List Char × List Char}
    {line : List Char} (h : turn? width state = some (line, next)) :
    next.2.length + (if next.1 = [] then 0 else 1) <
      state.2.length + (if state.1 = [] then 0 else 1) := by
  obtain ⟨current, word⟩ := state
  by_cases hcurrent : current = []
  · by_cases hfits : word.length ≤ width
    · simp [turn?, hcurrent, hfits] at h
    · simp only [turn?, if_pos hcurrent, if_neg hfits] at h
      obtain ⟨-, rfl⟩ := Prod.mk.inj (Option.some.inj h)
      simp only [List.length_drop, hcurrent, if_true]
      omega
  · by_cases hfits : current.length + 1 + word.length ≤ width
    · simp [turn?, hcurrent, hfits] at h
    · simp only [turn?, if_neg hcurrent, if_neg hfits] at h
      obtain ⟨-, rfl⟩ := Prod.mk.inj (Option.some.inj h)
      simp [hcurrent]

theorem turns_wellFounded (hwidth : 0 < width) :
    WellFounded fun next state : List Char × List Char =>
      ∃ line, turn? width state = some (line, next) := by
  refine Subrelation.wf ?_ (measure fun state : List Char × List Char =>
    state.2.length + (if state.1 = [] then 0 else 1)).wf
  rintro next state ⟨line, hline⟩
  exact turn_decreases hwidth hline

/-- Filling goes on from a line with the given parts. -/
def FillsFrom (width : Nat) (words : List (List Char)) (row : List Part) : Prop :=
  ∃ more rows, fill width words (spread width row) = ((row ++ more) :: rows).map (spread width) ∧
    Arranged width (row ++ words.flatMap (parts width)) ((row ++ more) :: rows)

variable {row : List Part}

theorem fillsFrom_nil (hrow : Holds width row) : FillsFrom width [] row := by
  refine ⟨[], [], by simp [fill], by simp, by simpa using hrow, by simp, ?_⟩
  by_cases hnil : row = []
  · simp [hnil]
  · simp [hnil, Ne.symm hnil]

theorem fillsFrom_empty (hwidth : 0 < width) (hword : word ≠ [])
    (h : ∀ last : Part, last.text width ≠ [] → FillsFrom width rest [last]) :
    FillsFrom width (word :: rest) [] := by
  obtain ⟨before, last, hparts⟩ :=
    (List.eq_nil_or_concat' _).resolve_left (parts_ne_nil hwidth hword)
  have htexts := texts_parts hwidth hword
  rw [hparts, List.map_append] at htexts
  obtain ⟨hbefore, hlast⟩ := List.append_inj' htexts rfl
  have hlast' := List.singleton_injective hlast
  have hlastText : last.text width ≠ [] :=
    text_ne_nil hwidth (hparts ▸ List.mem_append_right _ List.mem_cons_self)
  -- filling goes on behind the last part, and the others have lines of their own above
  obtain ⟨more, rows, hfill, harranged⟩ := h last hlastText
  have hall := harranged.singles (hparts ▸ parts_pairwise width word)
  obtain ⟨first, others, hrows⟩ := List.exists_cons_of_ne_nil hall.rows_ne_nil
  refine ⟨first, others, ?_, ?_⟩
  · rw [spread_singleton] at hfill
    rw [spread_nil, fill_nil_cons, ← hbefore, ← hlast', hfill, List.nil_append, ← hrows,
      List.map_append, List.map_map]
    simp [Function.comp_def]
  · rw [List.flatMap_cons, hparts, List.nil_append, List.nil_append, List.append_assoc, ← hrows]
    exact hall

theorem fillsFrom_of_fits (hrow : spread width row ≠ []) (hword : word ≠ [])
    (hfits : (spread width row).length + 1 + word.length ≤ width)
    (hspread : spread width (row ++ [⟨word, 0⟩]) = spread width row ++ ' ' :: word)
    (h : FillsFrom width rest (row ++ [⟨word, 0⟩])) : FillsFrom width (word :: rest) row := by
  have hone : parts width word = [⟨word, 0⟩] := parts_of_le hword (by omega)
  obtain ⟨more, rows, hfill, harranged⟩ := h
  refine ⟨⟨word, 0⟩ :: more, rows, ?_, ?_⟩
  · rw [fill_of_fits hrow hfits, ← hspread, hfill, List.append_assoc]
    rfl
  · rw [List.flatMap_cons, hone]
    simpa using harranged

theorem fillsFrom_of_not_fits (hwidth : 0 < width) (hword : word ≠ []) (hrow : Holds width row)
    (hcurrent : spread width row ≠ [])
    (hfits : ¬ (spread width row).length + 1 + word.length ≤ width)
    (h : FillsFrom width (word :: rest) []) : FillsFrom width (word :: rest) row := by
  have hne : row ≠ [] := fun hnil => hcurrent (hnil ▸ spread_nil width)
  obtain ⟨first, rows, hfill, harranged⟩ := h
  refine ⟨[], first :: rows, ?_, ?_⟩
  · rw [spread_nil] at hfill
    rw [fill_of_not_fits hcurrent hfits, hfill, List.append_nil]
    rfl
  · rw [List.append_nil]
    refine harranged.cons ?_ hrow hne fun p hp _ => ?_
    · simp [parts_ne_nil hwidth hword]
    · rw [word_of_head hwidth hword hp]
      omega

theorem fillsFrom (hwidth : 0 < width) {words : List (List Char)} (hwords : ∀ v ∈ words, v ≠ [])
    (hrow : Holds width row) (htext : ∀ p ∈ row, p.text width ≠ []) : FillsFrom width words row := by
  -- on the words; the parts that are already on the current line vary
  induction words generalizing row with
  | nil => exact fillsFrom_nil hrow
  | cons word rest ih =>
    have hword := hwords word List.mem_cons_self
    have hrest : ∀ v ∈ rest, v ≠ [] := fun v hv => hwords v (List.mem_cons_of_mem word hv)
    have hempty : FillsFrom width (word :: rest) [] :=
      fillsFrom_empty hwidth hword fun last hlast =>
        ih hrest (.singleton (length_text_le width last)) (by simpa using hlast)
    by_cases hnil : row = []
    · exact hnil ▸ hempty
    have hcurrent := spread_ne_nil hnil htext
    by_cases hfits : (spread width row).length + 1 + word.length ≤ width
    · have hwhole : (Part.mk word 0).text width = word :=
        List.take_of_length_le (show word.length ≤ width by omega)
      have hspread : spread width (row ++ [⟨word, 0⟩]) = spread width row ++ ' ' :: word := by
        rw [spread_concat hnil, hwhole]
      have hrow' : Holds width (row ++ [⟨word, 0⟩]) := by
        refine hrow.concat hnil (show word.length ≤ width by omega) ?_
        rw [hspread, List.length_append, List.length_cons]
        omega
      refine fillsFrom_of_fits hcurrent hword hfits hspread (ih hrest hrow' ?_)
      exact List.forall_mem_append.mpr ⟨htext, by simpa [hwhole] using hword⟩
    · exact fillsFrom_of_not_fits hwidth hword hrow hcurrent hfits hempty

theorem arranged_line (hwidth : 0 < width) (line : List Char) : ∃ rows,
    fill width (words line) [] = rows.map (spread width) ∧
    Arranged width ((words line).flatMap (parts width)) rows := by
  have hempty : FillsFrom width (words line) [] :=
    fillsFrom hwidth (fun v hv => (not_blank_of_mem_word hv).1) ⟨Nat.zero_le _, by simp⟩ (by simp)
  obtain ⟨first, rows, hfill, harranged⟩ := hempty
  exact ⟨first :: rows, hfill, harranged⟩

end Filling

section Wrapped

variable {width : Nat}

theorem flatMap_text_parts (hwidth : 0 < width) {word : List Char} (hword : word ≠ []) :
    (parts width word).flatMap (Part.text width) = word := by
  obtain ⟨-, -, -, hwhole⟩ := chop_spec hwidth hword
  rw [List.flatMap_def, texts_parts hwidth hword, List.flatten_append, List.flatten_singleton, hwhole]

theorem flatMap_text_words (hwidth : 0 < width) (line : List Char) :
    ((words line).flatMap (parts width)).flatMap (Part.text width) = inked line := by
  rw [List.flatMap_assoc, ← flatten_words, List.flatten_eq_flatMap]
  exact List.flatMap_congr fun v hv => flatMap_text_parts hwidth (not_blank_of_mem_word hv).1

theorem inked_rows (width : Nat) (rows : List (List Part)) :
    inked (rows.map (spread width)).flatten = inked (rows.flatten.flatMap (Part.text width)) := by
  induction rows with
  | nil => rfl
  | cons row rows ih =>
    rw [List.map_cons, List.flatten_cons, inked_append, ih, inked_spread, List.flatten_cons,
      List.flatMap_append, inked_append]

variable {line : List Char} {rows : List (List Part)}

theorem Arranged.text_ne_nil (hwidth : 0 < width)
    (h : Arranged width ((words line).flatMap (parts width)) rows) {row : List Part}
    (hrow : row ∈ rows) : ∀ p ∈ row, p.text width ≠ [] ∧ ∀ c ∈ p.text width, isBlank c = false := by
  intro p hp
  have hmem : p ∈ (words line).flatMap (parts width) :=
    h.order ▸ List.mem_flatten.mpr ⟨row, hrow, hp⟩
  obtain ⟨v, hv, hp⟩ := List.mem_flatMap.mp hmem
  refine ⟨Text.text_ne_nil hwidth hp, fun c hc => ?_⟩
  obtain ⟨rfl, -⟩ := mem_parts.mp hp
  exact (not_blank_of_mem_word hv).2 c (List.mem_of_mem_drop (List.mem_of_mem_take hc))

theorem Arranged.empty_lines (hwidth : 0 < width)
    (h : Arranged width ((words line).flatMap (parts width)) rows) :
    if words line = [] then rows.map (spread width) = [[]] else [] ∉ rows.map (spread width) := by
  have hempty := h.empty
  by_cases hwords : words line = []
  · rw [hwords, List.flatMap_nil, if_pos rfl] at hempty
    rw [if_pos hwords, hempty]
    rfl
  · obtain ⟨v, vs, hcons⟩ := List.exists_cons_of_ne_nil hwords
    have hv := (not_blank_of_mem_word (hcons ▸ List.mem_cons_self : v ∈ words line)).1
    have hparts : (words line).flatMap (parts width) ≠ [] := by
      rw [hcons, List.flatMap_cons]
      simp [parts_ne_nil hwidth hv]
    rw [if_neg hparts] at hempty
    rw [if_neg hwords]
    intro hmem
    obtain ⟨row, hrow, hnil⟩ := List.mem_map.mp hmem
    have hne : row ≠ [] := fun hrownil => hempty (hrownil ▸ hrow)
    exact spread_ne_nil hne (fun p hp => (h.text_ne_nil hwidth hrow p hp).1) hnil

/-- How the lines of a text are broken into lines that have room for so many characters. -/
def Broken (width : Nat) : List (List Char) → List (List (List Part)) → Prop :=
  List.Forall₂ fun line rows => Arranged width ((words line).flatMap (parts width)) rows ∧
    if words line = [] then rows.map (spread width) = [[]] else [] ∉ rows.map (spread width)

variable {lines : List (List Char)} {blocks : List (List (List Part))}

theorem exists_broken (hwidth : 0 < width) (lines : List (List Char)) : ∃ blocks,
    (lines.flatMap fun line => fill width (words line) []) = blocks.flatten.map (spread width) ∧
    Broken width lines blocks := by
  induction lines with
  | nil => exact ⟨[], rfl, .nil⟩
  | cons line lines ih =>
    obtain ⟨blocks, hlines, hbroken⟩ := ih
    obtain ⟨rows, hfill, harranged⟩ := arranged_line hwidth line
    refine ⟨rows :: blocks, ?_, .cons ⟨harranged, harranged.empty_lines hwidth⟩ hbroken⟩
    rw [List.flatMap_cons, hfill, hlines, List.flatten_cons, List.map_append]

theorem Broken.fits (h : Broken width lines blocks) :
    ∀ row ∈ blocks.flatten, (spread width row).length ≤ width := by
  induction h with
  | nil => simp
  | cons hline _ ih =>
    rw [List.flatten_cons]
    exact List.forall_mem_append.mpr ⟨fun row hrow => (hline.1.holds row hrow).fits, ih⟩

/-- The line neither ends with a blank nor has blanks but spaces. -/
theorem Broken.trimmed (hwidth : 0 < width) (h : Broken width lines blocks) :
    ∀ row ∈ blocks.flatten, trimRight (spread width row) = spread width row ∧
      ∀ c ∈ spread width row, c = ' ' ∨ isBlank c = false := by
  induction h with
  | nil => simp
  | cons hline _ ih =>
    rw [List.flatten_cons]
    refine List.forall_mem_append.mpr ⟨fun row hrow => ?_, ih⟩
    have htext := hline.1.text_ne_nil hwidth hrow
    exact ⟨trimRight_spread htext, blank_of_mem_spread fun p hp => (htext p hp).2⟩

theorem Broken.inked_eq (hwidth : 0 < width) (h : Broken width lines blocks) :
    inked (blocks.flatten.map (spread width)).flatten = inked lines.flatten := by
  induction h with
  | nil => rfl
  | @cons line rows lines blocks hline _ ih =>
    have hrows : inked (rows.map (spread width)).flatten = inked line := by
      rw [inked_rows, hline.1.order, flatMap_text_words hwidth, inked_inked]
    rw [List.flatten_cons, List.map_append, List.flatten_append, inked_append, hrows, ih,
      List.flatten_cons, inked_append]

theorem wrap_broken (text : List Char) (width : Nat) : ∃ blocks,
    wrap text width = blocks.flatten.map (spread (max width 1)) ∧
    Broken (max width 1) (Text.lines text) blocks :=
  exists_broken (by omega) (Text.lines text)

theorem of_mem_wrap {text l : List Char} (h : l ∈ wrap text width) :
    l.length ≤ max width 1 ∧ trimRight l = l ∧ ∀ c ∈ l, c = ' ' ∨ isBlank c = false := by
  obtain ⟨blocks, hwrap, hbroken⟩ := wrap_broken text width
  rw [hwrap] at h
  obtain ⟨row, hrow, rfl⟩ := List.mem_map.mp h
  exact ⟨hbroken.fits row hrow, hbroken.trimmed (by omega) row hrow⟩

theorem inked_wrap (text : List Char) (width : Nat) :
    inked (wrap text width).flatten = inked text := by
  obtain ⟨blocks, hwrap, hbroken⟩ := wrap_broken text width
  rw [hwrap, hbroken.inked_eq (by omega), inked_lines]

end Wrapped

/-- The lines of a text, where a line has room for some characters, or for one if that is none. They are
filled in turns, of which there are only finitely many. They hold all that is not blank, in order. A word is
cut only if it is longer than a line, and then into pieces that fill a line and a last one. -/
theorem wrap_arranges_words (text : List Char) (width : Nat) :
    let w := max width 1
    (WellFounded fun next state : List Char × List Char =>
      ∃ line, turn? w state = some (line, next)) ∧
    (∀ (word : List Char) (rest : List (List Char)) (current : List Char),
      fill w (word :: rest) current =
        match turn? w (current, word) with
        | none => fill w rest (if current = [] then word else current ++ ' ' :: word)
        | some (line, current', word') => line :: fill w (word' :: rest) current') ∧
    (∀ l ∈ wrap text width, l.length ≤ w) ∧
    inked (wrap text width).flatten = inked text ∧
    (∀ word : List Char, word ≠ [] →
      (word.length ≤ w → (parts w word).map (Part.text w) = [word]) ∧
      ∃ full last, (parts w word).map (Part.text w) = full ++ [last] ∧
        (∀ piece ∈ full, piece.length = w) ∧ last ≠ [] ∧ last.length ≤ w ∧
        full.flatten ++ last = word) ∧
    ∃ blocks : List (List (List Part)),
      wrap text width = blocks.flatten.map (spread w) ∧ Broken w (lines text) blocks := by
  intro w
  have hw : 0 < w := by omega
  obtain ⟨blocks, hwrap, hbroken⟩ := wrap_broken text width
  refine ⟨turns_wellFounded hw, fill_turn hw, fun l hl => (of_mem_wrap hl).1, inked_wrap text width,
    fun word hword => ⟨fun hle => ?_, ?_⟩, blocks, hwrap, hbroken⟩
  · rw [parts_of_le hword hle]
    simp [Part.text, List.take_of_length_le hle]
  · obtain ⟨hfull, hlast, hle, hwhole⟩ := chop_spec hw hword
    exact ⟨_, _, texts_parts hw hword, hfull, hlast, hle, hwhole⟩

example : wrap "a word\n \nabcdef is cut".toList 4 =
    ["a", "word", "", "abcd", "ef", "is", "cut"].map String.toList := by cbv

end Muster.Text
