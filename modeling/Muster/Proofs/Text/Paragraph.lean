import Muster.Proofs.Text.Wrapped

/-! Paragraphs behind a lead that leaves room on the line. Main statement: no line of theirs is cut, since
the text was broken into lines that fit behind the lead. -/

namespace Muster.Text

variable {lead : List Char} {ls : List (List Char)}

/-- The text with blanks for its newlines. -/
def oneLine (cs : List Char) : List Char := cs.map fun c => if c = '\n' then ' ' else c

@[simp] theorem length_oneLine (cs : List Char) : (oneLine cs).length = cs.length :=
  List.length_map _

theorem oneLine_append (cs ds : List Char) : oneLine (cs ++ ds) = oneLine cs ++ oneLine ds :=
  List.map_append

theorem oneLine_of_not_mem {cs : List Char} (h : '\n' ∉ cs) : oneLine cs = cs := by
  refine (List.map_congr_left fun c hc => if_neg ?_).trans (List.map_id' cs)
  rintro rfl
  exact h hc

/-- The text and as many blanks as a line has room for behind it. -/
def pad (room : Nat) (cs : List Char) : List Char := cs ++ List.replicate (room - cs.length) ' '

theorem length_pad {cs : List Char} {room : Nat} (h : cs.length ≤ room) :
    (pad room cs).length = room := by
  rw [pad, List.length_append, List.length_replicate]
  omega

theorem trimRight_pad (room : Nat) (cs : List Char) : trimRight (pad room cs) = trimRight cs := by
  refine trimRight_append_blanks (fun c hc => ?_) cs
  rw [List.eq_of_mem_replicate hc]
  rfl

theorem inked_pad (room : Nat) (cs : List Char) : inked (pad room cs) = inked cs := by
  have hblanks : inked (List.replicate (room - cs.length) ' ') = [] := by
    rw [inked, List.filter_replicate]
    rfl
  rw [pad, inked_append, hblanks, List.append_nil]

theorem inked_flatten_pad (room : Nat) (ls : List (List Char)) :
    inked (ls.map (pad room)).flatten = inked ls.flatten := by
  rw [inked, inked, List.filter_flatten, List.filter_flatten, List.map_map]
  exact congrArg List.flatten (List.map_congr_left fun l _ => inked_pad room l)

theorem fit_of_le {cs : List Char} {width : Nat} (h : cs.length ≤ width) :
    fit cs width = pad width (oneLine cs) := by
  rw [← length_oneLine cs] at h
  exact if_pos h

theorem pad_append {cs ds : List Char} {room width : Nat} (h : cs.length + room = width) :
    pad width (cs ++ ds) = cs ++ pad room ds := by
  have hroom : width - (cs ++ ds).length = room - ds.length := by
    rw [List.length_append]
    omega
  rw [pad, pad, hroom, List.append_assoc]

@[simp] theorem length_hang : (hang lead ls).length = ls.length := by
  cases ls <;> simp [hang]

theorem map_drop_hang : (hang lead ls).map (List.drop lead.length) = ls := by
  cases ls with
  | nil => rfl
  | cons l ls => simp [hang, Function.comp_def, List.drop_left']

theorem take_of_mem_head_hang {l : List Char} (h : l ∈ (hang lead ls).head?) :
    l.take lead.length = lead := by
  cases ls with
  | nil => simp [hang] at h
  | cons m ms =>
    obtain rfl : lead ++ m = l := by simpa [hang] using h
    exact List.take_left

theorem take_of_mem_tail_hang {l : List Char} (h : l ∈ (hang lead ls).tail) :
    l.take lead.length = List.replicate lead.length ' ' := by
  cases ls with
  | nil => simp [hang] at h
  | cons m ms =>
    obtain ⟨m', -, rfl⟩ := List.mem_map.mp h
    exact List.take_left' List.length_replicate

/-- Behind a lead that leaves room on the line, each line of a text has its place. -/
theorem paragraph_eq_hang {text : List Char} {room width : Nat} (hroom : 0 < room)
    (hwidth : lead.length + room = width) :
    paragraph text lead width = hang (oneLine lead) ((wrap text room).map (pad room)) := by
  -- a broken line is short enough for its place, and a newline is a blank but not a space
  have hline : ∀ l ∈ wrap text room, l.length ≤ room ∧ oneLine l = l := by
    intro l hl
    obtain ⟨hle, -, hchars⟩ := of_mem_wrap hl
    refine ⟨by omega, oneLine_of_not_mem fun hmem => ?_⟩
    exact absurd (hchars '\n' hmem) (by decide)
  have hfit : ∀ l ∈ wrap text room, ∀ front : List Char, front.length = lead.length →
      fit (front ++ l) width = oneLine front ++ pad room l := by
    intro l hl front hfront
    obtain ⟨hle, hflat⟩ := hline l hl
    rw [fit_of_le (by rw [List.length_append]; omega), oneLine_append, hflat,
      pad_append (show (oneLine front).length + room = width by rw [length_oneLine]; omega)]
  have hblanks : oneLine (List.replicate lead.length ' ') = List.replicate lead.length ' ' :=
    oneLine_of_not_mem (by simp)
  rw [paragraph, show width - lead.length = room by omega]
  cases hwrap : wrap text room with
  | nil => rfl
  | cons l ls =>
    rw [hwrap] at hfit
    rw [hang, List.map_cons, hfit l List.mem_cons_self lead rfl, List.map_cons, hang, List.map_map,
      List.map_map, length_oneLine]
    refine congrArg _ (List.map_congr_left fun m hm => ?_)
    have hrest := hfit m (List.mem_cons_of_mem l hm) (List.replicate lead.length ' ')
      List.length_replicate
    rwa [hblanks] at hrest

end Muster.Text
