import Keystroke.Proofs.Caret
import Keystroke.Proofs.Selection

/-!
# Replacing a part of a line

A part of a line cuts the text in three, where the lines say it is (`Buffer.cut_ofPart`).
A text without line breaks put in its place changes that line only
(`Buffer.exists_apply_ofPart`), also where a lone carriage return ends the line above.
The text must not be empty there : with nothing in front of it, a line feed that ends the
line would go with the carriage return.
-/

namespace Keystroke

open Text Position

variable {above below : List Line} {lead covered tail e : Text}

namespace IsLines

/-- What is left of a line goes on as the first one. -/
theorem of_append (h : IsLines (⟨lead ++ tail, e⟩ :: below)) :
    Unbroken lead ∧ IsLines (⟨tail, e⟩ :: below) := by
  cases h with
  | last hu =>
    obtain ⟨hlead, htail⟩ := unbroken_append.mp hu
    exact ⟨hlead, .last htail⟩
  | cons hu he hf hbelow =>
    obtain ⟨hlead, htail⟩ := unbroken_append.mp hu
    exact ⟨hlead, .cons htail he hf hbelow⟩

/-- A place on a line cuts the lines in two, and the texts of the two do not fuse. -/
theorem split (h : IsLines (above ++ ⟨lead ++ tail, e⟩ :: below)) :
    IsLines (above ++ [⟨lead, []⟩]) ∧ IsLines (⟨tail, e⟩ :: below) ∧
      ¬Fuses ((above ++ [Line.mk lead []]).flatMap Line.toText)
        ((⟨tail, e⟩ :: below).flatMap Line.toText) := by
  induction above with
  | nil =>
    obtain ⟨hlead, htail⟩ := h.of_append
    have htext : [Line.mk lead []].flatMap Line.toText = lead := by simp [Line.toText]
    rw [List.nil_append, htext]
    exact ⟨.last hlead, htail, hlead.not_fuses _⟩
  | cons l above ih =>
    rw [List.cons_append] at h
    obtain ⟨hl, he, hnext, h⟩ := h.of_cons (by simp)
    obtain ⟨hlines, htail, hplace⟩ := ih h
    rw [IsLines.flatMap_append] at hnext
    have hnext' : ¬Fuses l.terminator ((above ++ [Line.mk lead []]).flatMap Line.toText) :=
      fun hf => hnext (hf.append_right _)
    refine ⟨.cons hl he hnext' hlines, htail, ?_⟩
    rw [List.cons_append, List.flatMap_cons, Line.toText, List.append_assoc,
      fuses_append_left (by simp [he.ne_nil])]
    exact not_fuses_append_left hnext hplace

end IsLines

/-! ## The range of a part of a line -/

namespace Range

/-- The range of a part of a line, given the lines above and what is in front of it. -/
def ofPart (above : List Line) (lead covered : Text) : Range :=
  onLine (above.length + 1) (lead.length + 1) ((lead ++ covered).length + 1)

theorem ofPart_nil (above : List Line) (lead : Text) :
    ofPart above lead [] = point ⟨above.length + 1, lead.length + 1⟩ := by
  rw [ofPart, List.append_nil, onLine, ofEnds_self]

theorem start_ofPart (above : List Line) (lead covered : Text) :
    (ofPart above lead covered).start = ⟨above.length + 1, lead.length + 1⟩ :=
  start_onLine (by simp)

theorem stop_ofPart (above : List Line) (lead covered : Text) :
    (ofPart above lead covered).stop = ⟨above.length + 1, (lead ++ covered).length + 1⟩ :=
  stop_onLine (by simp)

end Range

theorem insertedEnd_ofPart {t : Text} (ht : Unbroken t) :
    (⟨.ofPart above lead covered, t⟩ : TextEdit).insertedEnd =
      ⟨above.length + 1, (lead ++ t).length + 1⟩ := by
  rw [TextEdit.insertedEnd, Range.start_ofPart, traverse_unbroken ht, List.length_append,
    Nat.add_right_comm]

/-! ## Replacing it -/

namespace Buffer

variable {b : Buffer} {p : Position}

/-- The line of a position inside the buffer, cut there. -/
theorem Valid.exists_lines (h : b.Valid p) :
    ∃ above lead tail e below, b.lines = above ++ ⟨lead ++ tail, e⟩ :: below ∧
      p = ⟨above.length + 1, lead.length + 1⟩ := by
  obtain ⟨before, after, hcut⟩ := h.exists_between
  obtain ⟨above, lead, hs⟩ := exists_lines_eq_concat before
  obtain ⟨tail, e, below, hu⟩ := exists_lines_eq_cons after
  refine ⟨above, lead, tail, e, below, lines_of_append hcut.text hcut.not_fuses hs hu, ?_⟩
  rw [← hcut.position, traverse_of_lines hs]

/-- A range on one line is a part of that line. -/
theorem Covers.exists_ofPart {r : Range} (h : b.Covers r) (hsingle : r.isSingleLine = true) :
    ∃ above lead covered tail e below,
      b.lines = above ++ ⟨lead ++ covered ++ tail, e⟩ :: below ∧ r = .ofPart above lead covered := by
  obtain ⟨above, front, tail, e, below, hlines, hstop⟩ := h.2.exists_lines
  have hline : r.start.line = above.length + 1 := by rw [beq_iff_eq.mp hsingle, hstop]
  have hpos : 1 ≤ r.start.column := h.1.2.2.1
  have hcolumn : r.start.column - 1 ≤ front.length := by
    have hle := r.start_le_stop
    simp only [hstop, le_def] at hle
    omega
  refine ⟨above, front.take (r.start.column - 1), front.drop (r.start.column - 1), tail, e, below,
    ?_, ?_⟩
  · rw [List.take_append_drop, hlines]
  · have hr := Range.eq_onLine hsingle
    rw [hline, hstop] at hr
    rw [Range.ofPart, List.take_append_drop, List.length_take_of_le hcolumn,
      Nat.sub_add_cancel hpos]
    exact hr

section

variable (h : b.lines = above ++ ⟨lead ++ covered ++ tail, e⟩ :: below)

include h

/-- A part of a line cuts the text in three. -/
theorem cut_ofPart :
    b.Cut (.ofPart above lead covered) ((above ++ [Line.mk lead []]).flatMap Line.toText) covered
      ((⟨tail, e⟩ :: below).flatMap Line.toText) := by
  have hlines : IsLines (above ++ ⟨lead ++ covered ++ tail, e⟩ :: below) := h ▸ b.isLines
  obtain ⟨hcut, -, hstop⟩ := hlines.split
  rw [List.append_assoc] at hlines
  obtain ⟨hbefore, -, hstart⟩ := hlines.split
  have hcovered : (above ++ [Line.mk (lead ++ covered) []]).flatMap Line.toText =
      (above ++ [Line.mk lead []]).flatMap Line.toText ++ covered := by
    simp [Line.toText]
  have hafter : (⟨covered ++ tail, e⟩ :: below).flatMap Line.toText =
      covered ++ (⟨tail, e⟩ :: below).flatMap Line.toText := by
    simp [Line.toText]
  refine ⟨?_, ?_, ?_, ?_, ?_⟩
  · rw [← b.flatMap_lines, h, IsLines.flatMap_append, hcovered]
  · rw [Range.start_ofPart, origin, hbefore.traverse, Nat.add_comm]
  · rw [Range.stop_ofPart, ← hcovered, origin, hcut.traverse, Nat.add_comm]
  · rw [← hafter]
    exact hstart
  · rw [← hcovered]
    exact hstop

/-- A part of a line is replaced, and the other lines and all terminators stay. -/
theorem exists_apply_ofPart {t : Text} (ht : Unbroken t) (hne : t ≠ []) (place : Placement) :
    ∃ b' : Buffer, b'.lines = above ++ ⟨lead ++ t ++ tail, e⟩ :: below ∧
      b.apply (.replace ⟨.ofPart above lead covered, t⟩ place) =
        .ok (b', place.cursorAfter ⟨.ofPart above lead covered, t⟩) := by
  have hcut := cut_ofPart h
  have hlines : IsLines (above ++ ⟨lead ++ (covered ++ tail), e⟩ :: below) := by
    rw [← List.append_assoc, ← h]
    exact b.isLines
  obtain ⟨hbefore, hrest, -⟩ := hlines.split
  obtain ⟨-, hafter⟩ := hrest.of_append
  have hnew := lines_unbroken_append ht (lines_flatMap hafter)
  have hf : ¬Fuses ((above ++ [Line.mk lead []]).flatMap Line.toText)
      (t ++ (⟨tail, e⟩ :: below).flatMap Line.toText) := by
    rw [fuses_append_right hne]
    exact ht.not_fuses_right _
  refine ⟨_, ?_, hcut.apply_replace t place⟩
  rw [Buffer.lines, List.append_assoc, lines_append (lines_flatMap hbefore) hnew hf,
    List.append_assoc]

/-- The caret goes to the end of what is put in. -/
theorem exists_type_ofPart {t : Text} (ht : Unbroken t) (hne : t ≠ []) :
    ∃ b' : Buffer, b'.lines = above ++ ⟨lead ++ t ++ tail, e⟩ :: below ∧
      b.apply (.type (.ofPart above lead covered) t) =
        .ok (b', .caret ⟨above.length + 1, (lead ++ t).length + 1⟩) := by
  obtain ⟨b', hlines, happly⟩ := exists_apply_ofPart h ht hne .followText
  refine ⟨b', hlines, ?_⟩
  rw [Command.type, happly, Placement.cursorAfter, insertedEnd_ofPart ht]

/-- The caret goes to a place in what is put in. -/
theorem exists_typeOffset_ofPart {s t : Text} (hs : Unbroken s) (ht : Unbroken t)
    (hne : s ≠ []) :
    ∃ b' : Buffer, b'.lines = above ++ ⟨lead ++ (s ++ t) ++ tail, e⟩ :: below ∧
      b.apply (.typeOffset (.ofPart above lead covered) (s ++ t) 0 (-(t.length : Int))) =
        .ok (b', .caret ⟨above.length + 1, (lead ++ s).length + 1⟩) := by
  have hst : Unbroken (s ++ t) := unbroken_append.mpr ⟨hs, ht⟩
  obtain ⟨b', hlines, happly⟩ :=
    exists_apply_ofPart h hst (by simp [hne]) (.offset 0 (-(t.length : Int)))
  have hstart := Range.start_ofPart above lead covered
  refine ⟨b', hlines, ?_⟩
  rw [Command.typeOffset, happly, Placement.cursorAfter_back (by simp [hstart]) (by simp [hstart])
    hs ht, hstart, traverse_unbroken hs, List.length_append, Nat.add_right_comm]

end

/-- A caret on a line is between what the lines make up to it and the rest. -/
theorem between_of_lines (h : b.lines = above ++ ⟨lead ++ tail, e⟩ :: below) :
    b.Between ⟨above.length + 1, lead.length + 1⟩
      ((above ++ [Line.mk lead []]).flatMap Line.toText)
      ((⟨tail, e⟩ :: below).flatMap Line.toText) := by
  have hpoint : b.lines = above ++ ⟨lead ++ [] ++ tail, e⟩ :: below := by rwa [List.append_nil]
  have hcut := cut_ofPart hpoint
  exact ⟨by simpa using hcut.text, by simpa using hcut.not_fuses_start,
    by rw [hcut.start, Range.start_ofPart]⟩

end Buffer

end Keystroke
