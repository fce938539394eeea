import Keystroke.Position

/-!
# Selections

A selection runs from its anchor to its head, the end the caret is drawn at. The head
may be before the anchor : a selection has a direction, its range has none. A selection
whose ends are equal is empty, a plain caret.
-/

namespace Keystroke

/-- Which way a selection extends from its anchor; an empty one extends forward. -/
inductive Direction
  | forward
  | backward
deriving DecidableEq

/-- Where a selection was begun, and where the caret is. -/
structure Selection where
  anchor : Position
  head : Position
deriving DecidableEq

namespace Selection

/-- The empty selection at a position. -/
def caret (p : Position) : Selection :=
  ⟨p, p⟩

/-- The selection of a range in a direction. -/
def ofRange (r : Range) : Direction → Selection
  | .forward => ⟨r.start, r.stop⟩
  | .backward => ⟨r.stop, r.start⟩

variable (s : Selection)

/-- The ends in document order. -/
def range : Range :=
  .ofEnds s.anchor s.head

/-- The end that comes first. -/
def start : Position :=
  s.range.start

/-- The end that comes last. -/
def stop : Position :=
  s.range.stop

/-- A caret alone. -/
def isEmpty : Bool :=
  s.anchor == s.head

def isSingleLine : Bool :=
  s.anchor.line == s.head.line

/-- Backward if the caret is in front. A caret alone points forward. -/
def direction : Direction :=
  if s.head < s.anchor then .backward else .forward

/-- The same range in the other direction. -/
def swap : Selection :=
  ⟨s.head, s.anchor⟩

@[simp] theorem range_swap : s.swap.range = s.range :=
  Range.ofEnds_comm _ _

theorem range_ofRange (r : Range) (d : Direction) : (ofRange r d).range = r := by
  cases d with
  | forward => exact Range.ofEnds_of_le r.start_le_stop
  | backward =>
    show Range.ofEnds r.stop r.start = r
    rw [Range.ofEnds_comm]
    exact Range.ofEnds_of_le r.start_le_stop

/-- A selection is determined by its range and its direction. -/
theorem ofRange_range_direction : ofRange s.range s.direction = s := by
  obtain ⟨a, h⟩ := s
  by_cases hlt : h < a
  · have hn : ¬a ≤ h := fun hle => by
      simp only [Position.le_def, Position.lt_def] at hle hlt
      omega
    simp [direction, hlt, ofRange, range, Range.ofEnds, hn]
  · have hle : a ≤ h := Decidable.byContradiction fun hn => hlt (Position.not_le.mp hn)
    simp [direction, hlt, ofRange, range, Range.ofEnds, hle]

end Selection

end Keystroke
