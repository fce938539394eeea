import Keystroke.Selection

/-!
# Empty selections and directions

The range of a selection and its direction determine it. A selection that is not empty is
forward when its anchor comes first and backward when its head does, so a range with two
ends has the direction it is selected in (`Selection.direction_ofRange`).
-/

namespace Keystroke

/-- Strictly before is before and not the same. -/
theorem Position.lt_iff {p q : Position} : p < q ↔ p ≤ q ∧ p ≠ q := by
  cases p
  cases q
  simp only [lt_def, le_def, ne_eq, mk.injEq]
  omega

/-- A range on one line is between its two columns. -/
theorem Range.eq_onLine {r : Range} (h : r.isSingleLine = true) :
    r = .onLine r.start.line r.start.column r.stop.column := by
  have hline : r.start.line = r.stop.line := beq_iff_eq.mp h
  have hstop : (⟨r.start.line, r.stop.column⟩ : Position) = r.stop := by rw [hline]
  rw [onLine, hstop]
  exact (ofEnds_of_le r.start_le_stop).symm

namespace Selection

variable {s : Selection}

/-- A caret has one place for both ends. -/
theorem isEmpty_iff : s.isEmpty = true ↔ s.anchor = s.head := by
  rw [isEmpty, beq_iff_eq]

theorem isEmpty_eq_false_iff : s.isEmpty = false ↔ s.anchor ≠ s.head := by
  rw [← Bool.not_eq_true, isEmpty_iff]

/-- A caret is on one line. -/
theorem isSingleLine_of_isEmpty (h : s.isEmpty = true) : s.isSingleLine = true := by
  rw [isSingleLine, isEmpty_iff.mp h, beq_self_eq_true]

/-- Ends on two lines are not a caret. -/
theorem isEmpty_of_isSingleLine (h : s.isSingleLine = false) : s.isEmpty = false := by
  rw [← Bool.not_eq_true]
  intro hempty
  simp [isSingleLine_of_isEmpty hempty] at h

/-- The range of a selection is on one line if the selection is. -/
theorem isSingleLine_range (s : Selection) : s.range.isSingleLine = s.isSingleLine := by
  unfold range Range.ofEnds
  split
  · rfl
  · exact BEq.comm

/-- Over several lines the range starts on an earlier line than it ends on. -/
theorem start_line_lt_stop_line (h : s.isSingleLine = false) :
    s.range.start.line < s.range.stop.line := by
  have hle := s.range.start_le_stop
  rw [← isSingleLine_range, Range.isSingleLine, beq_eq_false_iff_ne] at h
  rw [Position.le_def] at hle
  omega

/-- The range of a caret is its place. -/
theorem range_of_isEmpty (h : s.isEmpty = true) : s.range = .point s.head := by
  rw [range, isEmpty_iff.mp h, Range.ofEnds_self]

/-- Backward is a head in front of the anchor. -/
theorem direction_eq_backward_iff : s.direction = .backward ↔ s.head < s.anchor := by
  rw [direction]
  split <;> simp [*]

/-- Forward is a head at the anchor or after it, so a caret points forward. -/
theorem direction_eq_forward_iff : s.direction = .forward ↔ s.anchor ≤ s.head := by
  have hdirection : s.direction = .forward ↔ ¬s.direction = .backward := by
    cases s.direction <;> simp
  rw [hdirection, direction_eq_backward_iff, ← Position.not_le, Decidable.not_not]

/-- A forward selection that is not empty has its anchor first. -/
theorem anchor_lt_head_iff :
    s.anchor < s.head ↔ s.isEmpty = false ∧ s.direction = .forward := by
  rw [isEmpty_eq_false_iff, direction_eq_forward_iff, Position.lt_iff, and_comm]

/-- A backward one has its head first, and is never empty. -/
theorem head_lt_anchor_iff :
    s.head < s.anchor ↔ s.isEmpty = false ∧ s.direction = .backward := by
  rw [isEmpty_eq_false_iff, direction_eq_backward_iff]
  exact ⟨fun h => ⟨(Position.lt_iff.mp h).2.symm, h⟩, And.right⟩

/-- A range with two ends is selected in the direction asked for. -/
theorem direction_ofRange {r : Range} (h : r.start < r.stop) (d : Direction) :
    (ofRange r d).direction = d := by
  cases d with
  | forward => exact direction_eq_forward_iff.mpr r.start_le_stop
  | backward => exact direction_eq_backward_iff.mpr h

/-- The range has an extent exactly if the selection has one. -/
theorem start_lt_stop_iff : s.range.start < s.range.stop ↔ s.isEmpty = false := by
  rw [Position.lt_iff, isEmpty_eq_false_iff, range]
  unfold Range.ofEnds
  split
  · rename_i hle
    simp [hle]
  · rename_i hle
    simp [Position.le_of_not_le hle, eq_comm]

theorem isEmpty_range (s : Selection) : s.range.isEmpty = s.isEmpty := by
  cases h : s.isEmpty with
  | true =>
    rw [range_of_isEmpty h, Range.isEmpty, beq_iff_eq]
    rfl
  | false =>
    rw [Range.isEmpty, beq_eq_false_iff_ne]
    exact (Position.lt_iff.mp (start_lt_stop_iff.mpr h)).2

/-- On one line, the range starts on the line of the head. -/
theorem start_line_of_isSingleLine (h : s.isSingleLine = true) :
    s.range.start.line = s.head.line := by
  have hline : s.anchor.line = s.head.line := beq_iff_eq.mp h
  unfold range Range.ofEnds
  split
  · exact hline
  · rfl

end Selection

end Keystroke
