import Keystroke.Proofs.LineBlock
import Keystroke.Proofs.Surround

/-!
# The lines of a covered text

A range covers a part of each of its lines : what comes after its start on the first one, what
comes in front of its end on the last one, and all of a line in between. These parts are the
contents of the lines of the text between its ends (`Buffer.Cut.map_coveredPart`), also where
both ends are on one line. What the parts do not have of that text is its line breaks, so
looking for a character line by line finds what looking through the text finds
(`Context.coversNonBlank_iff`).
-/

namespace Keystroke

open Text Position

/-! ## Covered parts -/

namespace Context

variable {ctx : Context} {b : Buffer} {r : Range}

section

variable (hv : ctx.view = b.view)

include hv

/-- On one line a range covers what is between its columns. -/
theorem coveredPart_of_isSingleLine (h : r.isSingleLine = true) :
    ctx.coveredPart r r.start.line =
      (b.lineContent r.start.line).slice (r.start.column - 1) (r.stop.column - 1) := by
  rw [coveredPart, hv, if_pos rfl, if_pos (beq_iff_eq.mp h)]
  rfl

variable (h : r.start.line ≠ r.stop.line)

include h

/-- Of its first line it covers what comes after the start. -/
theorem coveredPart_start : ctx.coveredPart r r.start.line = b.textAfter r.start := by
  rw [coveredPart, hv, if_pos rfl, if_neg h, Buffer.textAfter, slice, ← List.length_drop]
  exact List.take_length

/-- Of its last line it covers what comes before the stop. -/
theorem coveredPart_stop : ctx.coveredPart r r.stop.line = b.textBefore r.stop := by
  rw [coveredPart, hv, if_neg h.symm, if_pos rfl, slice_zero]
  rfl

omit h in
/-- It covers the lines in between. -/
theorem coveredPart_between {line : Nat} (h₁ : line ≠ r.start.line) (h₂ : line ≠ r.stop.line) :
    ctx.coveredPart r line = b.lineContent line := by
  rw [coveredPart, hv, if_neg h₁, if_neg h₂, slice_zero]
  exact List.take_length

omit h in
theorem map_coveredPart_between :
    (linesBetween (r.start.line + 1) (r.stop.line - 1)).map (ctx.coveredPart r) =
      (linesBetween (r.start.line + 1) (r.stop.line - 1)).map b.lineContent := by
  refine List.map_congr_left fun line hline => ?_
  rw [mem_linesBetween] at hline
  exact coveredPart_between hv (by omega) (by omega)

end

end Context

namespace Buffer.Cut

variable {ctx : Context} {b : Buffer} {r : Range} {before covered after : Text}

section

variable {above : List Line} {lead last : Text} (hcut : b.Cut r before covered after)
  (hv : ctx.view = b.view) (hbefore : Text.lines before = above ++ [⟨lead, []⟩])

include hcut hbefore

theorem start_of_lines : r.start = ⟨above.length + 1, lead.length + 1⟩ := by
  rw [← hcut.start, traverse_of_lines hbefore]

include hv

/-- Both ends on one line. -/
theorem map_coveredPart_of_unbroken (hcovered : Text.lines covered = [⟨last, []⟩]) :
    (linesBetween r.start.line r.stop.line).map (ctx.coveredPart r) = [last] := by
  obtain ⟨tail, e, below, hafter⟩ := exists_lines_eq_cons after
  have hstart := hcut.start_of_lines hbefore
  have hjoined : Text.lines (before ++ covered) = above ++ [⟨lead ++ last, []⟩] :=
    lines_append hbefore hcovered hcut.not_fuses_covered
  have hstop : r.stop = ⟨above.length + 1, (lead ++ last).length + 1⟩ := by
    rw [← hcut.stop, traverse_of_lines hjoined]
  have hlines := lines_of_append hcut.text hcut.not_fuses_stop hjoined hafter
  have hsingle : r.isSingleLine = true := by
    rw [Range.isSingleLine, hstart, hstop, beq_self_eq_true]
  have hpart : ctx.coveredPart r r.start.line = last := by
    rw [Context.coveredPart_of_isSingleLine hv hsingle, hstart, hstop,
      lineContent_of_lines hlines, Nat.add_sub_cancel, Nat.add_sub_cancel, slice_append]
  rw [← beq_iff_eq.mp hsingle, linesBetween_self, List.map_singleton, hpart]

/-- The end on a line below the start. -/
theorem map_coveredPart_of_break {front e : Text} {between : List Line}
    (hcovered : Text.lines covered = ⟨front, e⟩ :: (between ++ [⟨last, []⟩])) :
    (linesBetween r.start.line r.stop.line).map (ctx.coveredPart r) =
      front :: (between.map Line.content ++ [last]) := by
  obtain ⟨tail, e', below, hafter⟩ := exists_lines_eq_cons after
  have hstart := hcut.start_of_lines hbefore
  have hjoined : Text.lines (before ++ covered) =
      (above ++ ⟨lead ++ front, e⟩ :: between) ++ [⟨last, []⟩] := by
    rw [List.append_assoc, List.cons_append]
    exact lines_append hbefore hcovered hcut.not_fuses_covered
  have hstop : r.stop =
      ⟨(above ++ ⟨lead ++ front, e⟩ :: between).length + 1, last.length + 1⟩ := by
    rw [← hcut.stop, traverse_of_lines hjoined]
  have hlines := lines_of_append hcut.text hcut.not_fuses_stop hjoined hafter
  have hlt : r.start.line < r.stop.line := by
    rw [hstart, hstop, List.length_append, List.length_cons]
    simp only
    omega
  have hfront : ctx.coveredPart r r.start.line = front := by
    rw [Context.coveredPart_start hv (Nat.ne_of_lt hlt), hstart]
    exact textAfter_of_lines (by rw [hlines, List.append_assoc, List.cons_append])
  have hlast : ctx.coveredPart r r.stop.line = last := by
    rw [Context.coveredPart_stop hv (Nat.ne_of_lt hlt), hstop, textBefore_of_lines hlines]
  have hbetween : (linesBetween (r.start.line + 1) (r.stop.line - 1)).map b.lineContent =
      between.map Line.content := by
    have hblock : b.lines =
        (above ++ [⟨lead ++ front, e⟩]) ++ (between ++ ⟨last ++ tail, e'⟩ :: below) := by
      simpa using hlines
    rw [← map_lineContent_linesBetween hblock, hstart, hstop]
    simp only [List.length_append, List.length_cons, List.length_nil, Nat.add_sub_cancel]
    congr 2
    omega
  rw [linesBetween_of_lt hlt, List.map_cons, List.map_append, List.map_singleton, hfront, hlast,
    Context.map_coveredPart_between hv, hbetween]

end

/-- The parts that a range covers of its lines are the contents of the lines of the text
between its ends. -/
theorem map_coveredPart (hcut : b.Cut r before covered after) (hv : ctx.view = b.view) :
    (linesBetween r.start.line r.stop.line).map (ctx.coveredPart r) =
      (Text.lines covered).map Line.content := by
  obtain ⟨above, lead, hbefore⟩ := exists_lines_eq_concat before
  obtain ⟨block, last, hcovered⟩ := exists_lines_eq_concat covered
  cases block with
  | nil =>
    rw [hcut.map_coveredPart_of_unbroken hv hbefore hcovered, hcovered]
    rfl
  | cons first between =>
    rw [hcut.map_coveredPart_of_break hv hbefore hcovered, hcovered, List.cons_append,
      List.map_cons, List.map_append]
    rfl

end Buffer.Cut

/-! ## Content of a selection -/

namespace Context

variable {ctx : Context} {b : Buffer} {r : Range}

/-- The lines a range covers, and no others, are looked at. -/
theorem coversNonBlank_eq_any (hv : ctx.view = b.view) (hr : b.Covers r) :
    ctx.coversNonBlank r =
      ((linesBetween r.start.line r.stop.line).map (ctx.coveredPart r)).any
        (List.any · fun c => !isBlank c) := by
  have hcount : r.stop.line ≤ ctx.view.lineCount := hv ▸ hr.2.2.1
  rw [coversNonBlank, Nat.min_eq_left hcount, List.any_map]
  rfl

/-- A range inside the buffer has content if the text between its ends has a character that is
neither a blank nor a line break, and only then. -/
theorem coversNonBlank_iff (hv : ctx.view = b.view) (hr : b.Covers r) :
    ∃ t, b.textIn? r = .ok t ∧
      (ctx.coversNonBlank r = true ↔ ∃ c ∈ t, isBlank c = false ∧ isLineBreak c = false) := by
  obtain ⟨before, covered, after, hcut⟩ := Buffer.exists_cut hr
  refine ⟨covered, hcut.textIn?, ?_⟩
  rw [coversNonBlank_eq_any hv hr, hcut.map_coveredPart hv]
  simp only [List.any_map, List.any_eq_true, Function.comp, Bool.not_eq_true']
  constructor
  · rintro ⟨l, hl, c, hc, hblank⟩
    obtain ⟨hmem, hbreak⟩ := exists_mem_content_iff.mp ⟨l, hl, hc⟩
    exact ⟨c, hmem, hblank, hbreak⟩
  · rintro ⟨c, hc, hblank, hbreak⟩
    obtain ⟨l, hl, hmem⟩ := exists_mem_content_iff.mpr ⟨hc, hbreak⟩
    exact ⟨l, hl, c, hmem, hblank⟩

/-- From the end of a line over an empty one, up to a letter and not over it. -/
theorem coversNonBlank_iff_separators :
    let b := Buffer.ofText ['a', '\u2028', '\r', '\n', '\t', '\u200b', 'b']
    let r : Range := .ofEnds ⟨1, 2⟩ ⟨3, 3⟩
    let ctx : Context := ⟨.standard, b.view, LanguageRules.constant none (.ok true) (.ok none)⟩
    b.Covers r ∧ ∃ t, b.textIn? r = .ok t ∧
      (ctx.coversNonBlank r = true ↔ ∃ c ∈ t, isBlank c = false ∧ isLineBreak c = false) := by
  intro b r ctx
  have hr : b.Covers r := ⟨by decide, by decide⟩
  exact ⟨hr, coversNonBlank_iff rfl hr⟩

end Context

end Keystroke
