import Muster.Proofs.Progress.Screen
import Muster.Proofs.Text.Paragraph

/-! The details below the last line of an entry. Main statement: where a line is longer than what stands
in front of them, all of their text is printed, line for line as it was broken. -/

namespace Muster.Progress

/-- The details of an entry are printed to the last character when what stands in front of them leaves room
on the line. -/
theorem Entry.details_printed_whole (e : Entry) {width : Nat} (hlead : e.lead.toList.length < width)
    (palette : Palette) (now : Nat) :
    let lead := e.lead.toList
    let room := width - lead.length
    let wrapped := Text.wrap e.details.toList room
    let printed := e.detailCells width
    let written := printed.map fun l => palette.paint detailsColour (String.ofList l) ++ "\n"
    (e.finalParts palette width now = e.line palette width now :: written ∧
      e.finalLines palette width now = e.line palette width now ++ "".intercalate written) ∧
    printed.length = wrapped.length ∧
    (∀ l ∈ printed, l.length = width ∧ '\n' ∉ l) ∧
    (∀ l ∈ printed.head?, l.take lead.length = Text.oneLine lead) ∧
    (∀ l ∈ printed.tail, l.take lead.length = List.replicate lead.length ' ') ∧
    printed.map (List.drop lead.length) = wrapped.map (Text.pad room) ∧
    printed.map (fun l => Text.trimRight (l.drop lead.length)) = wrapped ∧
    Text.inked (printed.flatMap (List.drop lead.length)) = Text.inked e.details.toList := by
  intro lead room wrapped printed written
  -- nothing is printed for an empty text, which has no lines to break it into either
  have hprinted : printed = Text.hang (Text.oneLine lead) (wrapped.map (Text.pad room)) := by
    by_cases hempty : e.details.isEmpty
    · have hnone : e.details.toList = [] := by simpa using hempty
      simp only [printed, wrapped, detailCells, if_pos hempty, hnone]
      rfl
    · simp only [printed, detailCells, if_neg hempty]
      exact Text.paragraph_eq_hang (Nat.sub_pos_of_lt hlead) (Nat.add_sub_of_le hlead.le)
  have hpage : ∀ l ∈ printed, l ∈ Text.paragraph e.details.toList lead width := by
    intro l hl
    simp only [printed, detailCells] at hl
    split at hl
    · simp at hl
    · exact hl
  have hlength : (Text.oneLine lead).length = lead.length := Text.length_oneLine lead
  have hcolumn : printed.map (List.drop lead.length) = wrapped.map (Text.pad room) := by
    rw [hprinted, ← hlength, Text.map_drop_hang]
  have hparts : e.finalParts palette width now = e.line palette width now :: written := by
    simp only [finalParts, detailParts, written, printed, detailCells, apply_ite (List.map _),
      List.map_nil]
  refine ⟨⟨hparts, ?_⟩, ?_, fun l hl => ⟨Text.length_of_mem_paragraph (hpage l hl), fun hmem => ?_⟩,
    fun l hl => ?_, fun l hl => ?_, hcolumn, ?_, ?_⟩
  · rw [finalLines, hparts, intercalate_empty_cons]
  · rw [hprinted, Text.length_hang, List.length_map]
  · exact Text.forall_mem_paragraph (P := (· ≠ '\n')) (by decide) (by decide)
      (fun c _ => Classical.em _) (fun c _ => Classical.em _) width l (hpage l hl) _ hmem rfl
  · rw [← hlength]
    exact Text.take_of_mem_head_hang (hprinted ▸ hl)
  · rw [← hlength]
    exact Text.take_of_mem_tail_hang (hprinted ▸ hl)
  · calc printed.map (fun l => Text.trimRight (l.drop lead.length))
        = (printed.map (List.drop lead.length)).map Text.trimRight := by rw [List.map_map]; rfl
      _ = wrapped.map Text.trimRight := by
        rw [hcolumn, List.map_map]
        exact List.map_congr_left fun l _ => Text.trimRight_pad room l
      _ = wrapped :=
        (List.map_congr_left fun l hl => (Text.of_mem_wrap hl).2.1).trans (List.map_id' wrapped)
  · rw [List.flatMap_def, hcolumn, Text.inked_flatten_pad]
    exact Text.inked_wrap e.details.toList room

theorem Entry.details_printed_whole_login :
    let e : Entry :=
      { message := "login", details := "no such server\nretry later", lead := "error: " }
    e.lead.toList.length < 14 ∧
      e.detailCells 14 = ["error: no such", "       server ", "       retry  ", "       later  "].map
        String.toList ∧
      (e.detailCells 14).map (fun l => Text.trimRight (l.drop e.lead.toList.length)) =
        Text.wrap e.details.toList (14 - e.lead.toList.length) := by
  intro e
  obtain ⟨-, -, -, -, -, -, htext, -⟩ := e.details_printed_whole
    (show _ < 14 by decide) .plain 0
  exact ⟨by decide, (if_neg (by simp [e])).trans (by cbv), htext⟩

end Muster.Progress
