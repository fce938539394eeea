import Keystroke.Proofs.OneLine

/-!
# Replacing lines by one

Whole lines cut the text in three, where the first of them starts and where the last one
ends in front of its terminator (`Buffer.cut_ofLines`). In a buffer without a bare carriage
return, a text without line breaks put in their place becomes one line with the terminator
of the last (`Buffer.exists_apply_ofLines`).
-/

namespace Keystroke

open Text Position

/-! ## The range of whole lines -/

namespace Range

/-- The range of a line and the lines right above it, given the lines above those. -/
def ofLines (above block : List Line) (last : Line) : Range :=
  ofEnds ⟨above.length + 1, 1⟩ ⟨above.length + block.length + 1, last.content.length + 1⟩

/-- The ends are in order, since the block comes first. -/
theorem ofLines_eq (above block : List Line) (last : Line) :
    ∃ h, ofLines above block last =
      ⟨⟨above.length + 1, 1⟩, ⟨above.length + block.length + 1, last.content.length + 1⟩, h⟩ := by
  have hle : (⟨above.length + 1, 1⟩ : Position) ≤
      ⟨above.length + block.length + 1, last.content.length + 1⟩ := by
    rw [le_def]
    simp only
    omega
  exact ⟨hle, ofEnds_of_le hle⟩

theorem start_ofLines (above block : List Line) (last : Line) :
    (ofLines above block last).start = ⟨above.length + 1, 1⟩ := by
  obtain ⟨_, h⟩ := ofLines_eq above block last
  rw [h]

theorem stop_ofLines (above block : List Line) (last : Line) :
    (ofLines above block last).stop =
      ⟨above.length + block.length + 1, last.content.length + 1⟩ := by
  obtain ⟨_, h⟩ := ofLines_eq above block last
  rw [h]

/-- A block has a line at least. -/
theorem isEmpty_ofLines {block : List Line} (h : block ≠ []) (above : List Line) (last : Line) :
    (ofLines above block last).isEmpty = false := by
  have hpos := List.length_pos_of_ne_nil h
  simp only [isEmpty, start_ofLines, stop_ofLines, beq_eq_false_iff_ne, ne_eq, Position.mk.injEq]
  omega

end Range

/-- A caret that goes back over the end of a text put in place of whole lines. -/
theorem Placement.cursorAfter_ofLines_back {s t : Text} (hs : Unbroken s) (ht : Unbroken t)
    (above block : List Line) (last : Line) :
    (offset 0 (-(t.length : Int))).cursorAfter ⟨.ofLines above block last, s ++ t⟩ =
      .caret ⟨above.length + 1, s.length + 1⟩ := by
  have hstart := Range.start_ofLines above block last
  rw [cursorAfter_back (by simp [hstart]) (by simp [hstart]) hs ht, hstart, traverse_unbroken hs,
    Nat.add_comm 1]

namespace IsLines

/-- Lines cut where one of them starts. -/
theorem split_start {above rest : List Line} (h : IsLines (above ++ rest)) (hne : rest ≠ []) :
    IsLines (above ++ [⟨[], []⟩]) ∧
      ¬Fuses (above.flatMap Line.toText) (rest.flatMap Line.toText) := by
  obtain ⟨⟨c, e⟩, rest, rfl⟩ := List.exists_cons_of_ne_nil hne
  have hstart : IsLines (above ++ ⟨[] ++ c, e⟩ :: rest) := h
  obtain ⟨hlines, -, hf⟩ := hstart.split
  refine ⟨hlines, ?_⟩
  simpa [Line.toText] using hf

end IsLines

namespace Buffer

variable {b : Buffer} {above block below : List Line} {last : Line}

/-! ## Lines of a buffer -/

/-- Two lines of a buffer, with the lines above, between and below. -/
theorem exists_lines_between {i j : Nat} (hi : 1 ≤ i) (hij : i < j) (hj : j ≤ b.lineCount) :
    ∃ above first between last below,
      b.lines = above ++ first :: (between ++ last :: below) ∧
        i = above.length + 1 ∧ j = above.length + between.length + 2 := by
  obtain ⟨i, rfl⟩ : ∃ k, i = k + 1 := ⟨i - 1, by omega⟩
  obtain ⟨n, rfl⟩ : ∃ n, j = i + n + 2 := ⟨j - i - 2, by omega⟩
  have hj : i + n + 2 ≤ b.lines.length := hj
  have hfirst : b.lines.drop i = b.lines[i] :: b.lines.drop (i + 1) :=
    List.drop_eq_getElem_cons (by omega)
  have hlast : b.lines.drop (i + 1 + n) = b.lines[i + 1 + n] :: b.lines.drop (i + 1 + n + 1) :=
    List.drop_eq_getElem_cons (by omega)
  have hbetween : (b.lines.drop (i + 1)).take n ++ b.lines.drop (i + 1 + n) =
      b.lines.drop (i + 1) := by
    rw [← List.drop_drop (i := n) (j := i + 1), List.take_append_drop]
  refine ⟨b.lines.take i, b.lines[i], (b.lines.drop (i + 1)).take n, b.lines[i + 1 + n],
    b.lines.drop (i + 1 + n + 1), ?_, ?_, ?_⟩
  · rw [← hlast, hbetween, ← hfirst, List.take_append_drop]
  · rw [List.length_take, Nat.min_eq_left (by omega)]
  · rw [List.length_take, List.length_take, List.length_drop, Nat.min_eq_left (by omega),
      Nat.min_eq_left (by omega)]

/-- The contents of a block, found by their numbers. -/
theorem map_lineContent_linesBetween (h : b.lines = above ++ (block ++ below)) :
    (linesBetween (above.length + 1) (above.length + block.length)).map b.lineContent =
      block.map Line.content := by
  refine List.ext_getElem (by simp [linesBetween]) fun k hk hk' => ?_
  have hk : k < block.length := by simpa using hk'
  have hlt : above.length + k < b.lines.length := by
    rw [h, List.length_append, List.length_append]
    omega
  have hline : above.length + 1 + 1 * k = above.length + k + 1 := by omega
  simp only [linesBetween, List.getElem_map, List.getElem_range', hline, lineContent_succ hlt, h]
  rw [List.getElem_append_right (Nat.le_add_right _ _)]
  simp only [Nat.add_sub_cancel_left, List.getElem_append_left hk]

/-! ## Replacing whole lines -/

section

variable (h : b.lines = above ++ (block ++ last :: below))

include h

/-- Whole lines cut the text in three. -/
theorem cut_ofLines :
    b.Cut (.ofLines above block last) (above.flatMap Line.toText)
      (block.flatMap Line.toText ++ last.content)
      ((⟨[], last.terminator⟩ :: below).flatMap Line.toText) := by
  have hlines : IsLines (above ++ (block ++ last :: below)) := h ▸ b.isLines
  obtain ⟨habove, hstart⟩ := hlines.split_start (by simp)
  have hend : IsLines ((above ++ block) ++ ⟨last.content ++ [], last.terminator⟩ :: below) := by
    simpa using hlines
  obtain ⟨hstop, -, hf⟩ := hend.split
  have hbefore : (above ++ [Line.mk [] []]).flatMap Line.toText = above.flatMap Line.toText := by
    simp [Line.toText]
  have hcovered : (above ++ block ++ [Line.mk last.content []]).flatMap Line.toText =
      above.flatMap Line.toText ++ (block.flatMap Line.toText ++ last.content) := by
    simp [Line.toText]
  refine ⟨?_, ?_, ?_, ?_, ?_⟩
  · rw [← b.flatMap_lines, h]
    simp [Line.toText]
  · rw [Range.start_ofLines, ← hbefore, origin, habove.traverse, Nat.add_comm]
    rfl
  · rw [Range.stop_ofLines, ← hcovered, origin, hstop.traverse, List.length_append,
      Nat.add_comm 1]
  · simpa [Line.toText] using hstart
  · rw [← hcovered]
    exact hf

/-- Whole lines become one, with the terminator of the last of them. The other lines and
their terminators stay. -/
theorem exists_apply_ofLines (hb : NoBareReturn b.text) {t : Text} (ht : Unbroken t)
    (place : Placement) :
    ∃ b' : Buffer, b'.lines = above ++ ⟨t, last.terminator⟩ :: below ∧
      b.apply (.replace ⟨.ofLines above block last, t⟩ place) =
        .ok (b', place.cursorAfter ⟨.ofLines above block last, t⟩) := by
  have hcut := cut_ofLines h
  obtain ⟨hbefore, -, -⟩ := hcut.noBareReturn hb
  have hlines : IsLines (above ++ (block ++ last :: below)) := h ▸ b.isLines
  obtain ⟨habove, -⟩ := hlines.split_start (by simp)
  have hend : IsLines ((above ++ block) ++ ⟨last.content ++ [], last.terminator⟩ :: below) := by
    simpa using hlines
  have hnew := lines_unbroken_append ht (lines_flatMap hend.split.2.1)
  have htext : (above ++ [Line.mk [] []]).flatMap Line.toText = above.flatMap Line.toText := by
    simp [Line.toText]
  have hlead := lines_flatMap habove
  rw [htext] at hlead
  refine ⟨_, ?_, hcut.apply_replace t place⟩
  rw [Buffer.lines, List.append_assoc, lines_append hlead hnew (hbefore.not_fuses _)]
  simp

end

end Buffer

end Keystroke
