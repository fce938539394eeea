import Keystroke.Text.Basic
import Keystroke.Word

/-!
# Positions, ranges and edits

A position is a line and a column, both counted from one, the column counting the
characters before it on its line plus one. Positions are in document order. A range is
an ordered pair of them, so `Range.ofEnds` takes its ends in either order.

`Position.traverse` is where the caret ends up after a text is inserted at a position,
and `Position.offset` moves a position by a signed distance; coordinates are kept
between one and the largest machine word.
-/

namespace Keystroke

/-- A line and a column on it. -/
structure Position where
  line : Nat
  column : Nat
deriving DecidableEq

namespace Position

/-! ## Document order -/

instance : LE Position where
  le p q := p.line < q.line ∨ p.line = q.line ∧ p.column ≤ q.column

instance : LT Position where
  lt p q := p.line < q.line ∨ p.line = q.line ∧ p.column < q.column

theorem le_def {p q : Position} :
    p ≤ q ↔ p.line < q.line ∨ p.line = q.line ∧ p.column ≤ q.column :=
  Iff.rfl

theorem lt_def {p q : Position} :
    p < q ↔ p.line < q.line ∨ p.line = q.line ∧ p.column < q.column :=
  Iff.rfl

instance (p q : Position) : Decidable (p ≤ q) :=
  decidable_of_iff _ le_def.symm

instance (p q : Position) : Decidable (p < q) :=
  decidable_of_iff _ lt_def.symm

theorem le_refl (p : Position) : p ≤ p :=
  Or.inr ⟨rfl, Nat.le_refl _⟩

theorem le_trans {p q r : Position} (h₁ : p ≤ q) (h₂ : q ≤ r) : p ≤ r := by
  simp only [le_def] at *
  omega

theorem le_antisymm {p q : Position} (h₁ : p ≤ q) (h₂ : q ≤ p) : p = q := by
  cases p
  cases q
  simp only [le_def, mk.injEq] at *
  omega

theorem not_le {p q : Position} : ¬p ≤ q ↔ q < p := by
  simp only [le_def, lt_def]
  omega

theorem le_of_not_le {p q : Position} (h : ¬p ≤ q) : q ≤ p := by
  simp only [le_def] at *
  omega

/-! ## Moving -/

/-- Where the caret is after `t` is inserted at `p`. A carriage return with a line feed
after it is one line break. -/
def traverse (p : Position) : Text → Position
  | [] => p
  | '\r' :: '\n' :: t => traverse ⟨p.line + 1, 1⟩ t
  | c :: t =>
    if isLineBreak c then traverse ⟨p.line + 1, 1⟩ t else traverse ⟨p.line, p.column + 1⟩ t

/-- The largest coordinate. -/
def maxCoordinate : Nat :=
  maxWord

/-- A coordinate moved by a signed distance. It stops at the largest coordinate, and is
never below one. -/
def moveCoordinate (x : Nat) : Int → Nat
  | .ofNat d => max 1 (max x (min (x + d) maxCoordinate))
  | .negSucc d => max 1 (x - (d + 1))

/-- A position moved by a number of lines and of columns. -/
def offset (p : Position) (lines columns : Int) : Position :=
  ⟨moveCoordinate p.line lines, moveCoordinate p.column columns⟩

/-- Line and column with a colon between them. -/
def toText (p : Position) : Text :=
  Text.ofNat p.line ++ ':' :: Text.ofNat p.column

@[simp] theorem traverse_nil (p : Position) : p.traverse [] = p := rfl

end Position

/-! ## Ranges -/

/-- From one position to one at or after it. -/
structure Range where
  start : Position
  stop : Position
  start_le_stop : start ≤ stop
deriving DecidableEq

namespace Range

/-- The range between two positions, whichever comes first. -/
def ofEnds (p q : Position) : Range :=
  if h : p ≤ q then ⟨p, q, h⟩ else ⟨q, p, Position.le_of_not_le h⟩

/-- The empty range at a position. -/
def point (p : Position) : Range :=
  ⟨p, p, Position.le_refl p⟩

/-- Between two columns of one line. -/
def onLine (line first last : Nat) : Range :=
  ofEnds ⟨line, first⟩ ⟨line, last⟩

def isEmpty (r : Range) : Bool :=
  r.start == r.stop

def isSingleLine (r : Range) : Bool :=
  r.start.line == r.stop.line

/-- Ends in order stay in order. -/
theorem ofEnds_of_le {p q : Position} (h : p ≤ q) : ofEnds p q = ⟨p, q, h⟩ :=
  dif_pos h

/-- It does not matter which end is given first. -/
theorem ofEnds_comm (p q : Position) : ofEnds p q = ofEnds q p := by
  unfold ofEnds
  by_cases h : p ≤ q <;> by_cases h' : q ≤ p
  · simp [Position.le_antisymm h h']
  · simp [h, h']
  · simp [h, h']
  · exact absurd (Position.le_of_not_le h) h'

@[simp] theorem ofEnds_self (p : Position) : ofEnds p p = point p :=
  ofEnds_of_le (Position.le_refl p)

end Range

/-! ## Edits -/

/-- One replacement of a range by a text. -/
structure TextEdit where
  range : Range
  text : Text
deriving DecidableEq

namespace TextEdit

/-- A text put in at a position. -/
def insertAt (p : Position) (t : Text) : TextEdit :=
  ⟨.point p, t⟩

/-- Where the inserted text ends once the edit is applied. -/
def insertedEnd (e : TextEdit) : Position :=
  e.range.start.traverse e.text

end TextEdit

end Keystroke
