import Keystroke.Cluster
import Keystroke.DisplayWidth
import Keystroke.Word

/-!
# Visible columns and tab stops

A visible column is the cell a position is shown in, counted from zero : a tab reaches
to the next multiple of the tab size, any other cluster takes the cells of its width.
Cells are added up as machine words. With a tab size of zero there are no stops. The
functions with a question mark say so, and the others agree with them for every positive
tab size.
-/

namespace Keystroke

/-! ## Tab stops -/

/-- The width of a tab that starts in cell `x`. -/
def tabWidthAt (x tabSize : Nat) : Nat :=
  tabSize - x % tabSize

/-- The first tab stop after `x`, if a word holds it. -/
def nextTabStop (x tabSize : Nat) : Nat :=
  addWord x (tabWidthAt x tabSize)

/-- The last tab stop before `x`, zero being its own. -/
def prevTabStop : Nat → Nat → Nat
  | 0, _ => 0
  | x + 1, tabSize => x - x % tabSize

/-- None where there are no stops to reach. -/
def tabWidthAt? (x tabSize : Nat) : Option Nat :=
  if tabSize = 0 then none else some (tabWidthAt x tabSize)

def nextTabStop? (x tabSize : Nat) : Option Nat :=
  (tabWidthAt? x tabSize).map (addWord x)

/-- Zero is a stop even where there are no others. -/
def prevTabStop? : Nat → Nat → Option Nat
  | 0, _ => some 0
  | x + 1, tabSize => if tabSize = 0 then none else some (prevTabStop (x + 1) tabSize)

theorem tabWidthAt?_eq_some {x tabSize : Nat} (h : 0 < tabSize) :
    tabWidthAt? x tabSize = some (tabWidthAt x tabSize) :=
  if_neg (Nat.ne_of_gt h)

theorem nextTabStop?_eq_some {x tabSize : Nat} (h : 0 < tabSize) :
    nextTabStop? x tabSize = some (nextTabStop x tabSize) := by
  simp [nextTabStop?, tabWidthAt?_eq_some h, nextTabStop]

/-- A tab takes one cell at least. -/
theorem tabWidthAt_pos {x tabSize : Nat} (h : 0 < tabSize) : 0 < tabWidthAt x tabSize :=
  Nat.sub_pos_of_lt (Nat.mod_lt x h)

/-! ## Visible columns -/

/-- The cell after a cluster that starts in cell `x`. -/
def cellAfter (tabSize x : Nat) (g : Text) : Nat :=
  if g = ['\t'] then nextTabStop x tabSize else addWord x (cellWidth g)

/-- Only a tab asks for stops. -/
def cellAfter? (tabSize x : Nat) (g : Text) : Option Nat :=
  if g = ['\t'] then nextTabStop? x tabSize else some (addWord x (cellWidth g))

/-- The cell after the clusters that hold the first `chars` characters, from cell `x`. -/
def cellAfterChars (tabSize : Nat) : List Text → Nat → Nat → Nat
  | [], _, x => x
  | g :: gs, chars, x =>
    if chars = 0 then x
    else cellAfterChars tabSize gs (chars - g.length) (cellAfter tabSize x g)

def cellAfterChars? (tabSize : Nat) : List Text → Nat → Nat → Option Nat
  | [], _, x => some x
  | g :: gs, chars, x =>
    if chars = 0 then some x
    else (cellAfter? tabSize x g).bind (cellAfterChars? tabSize gs (chars - g.length))

/-- Visible column of the 1-based `column` of a line. A column inside a cluster shows
where the cluster ends, one past the end of the line where the line ends. -/
def visibleColumn (line : Text) (column tabSize : Nat) : Nat :=
  cellAfterChars tabSize (clusters line) (column - 1) 0

/-- None if a tab in front of the column has no stop to reach. -/
def visibleColumn? (line : Text) (column tabSize : Nat) : Option Nat :=
  cellAfterChars? tabSize (clusters line) (column - 1) 0

theorem cellAfter?_eq_some {tabSize x : Nat} {g : Text} (h : 0 < tabSize) :
    cellAfter? tabSize x g = some (cellAfter tabSize x g) := by
  unfold cellAfter? cellAfter
  split
  · exact nextTabStop?_eq_some h
  · rfl

theorem cellAfterChars?_eq_some {tabSize : Nat} (h : 0 < tabSize) (gs : List Text)
    (chars x : Nat) :
    cellAfterChars? tabSize gs chars x = some (cellAfterChars tabSize gs chars x) := by
  induction gs generalizing chars x with
  | nil => rfl
  | cons g gs ih =>
    by_cases hc : chars = 0
    · simp [cellAfterChars?, cellAfterChars, hc]
    · simp [cellAfterChars?, cellAfterChars, hc, cellAfter?_eq_some h, ih]

theorem visibleColumn?_eq_some {line : Text} {column tabSize : Nat} (h : 0 < tabSize) :
    visibleColumn? line column tabSize = some (visibleColumn line column tabSize) :=
  cellAfterChars?_eq_some h _ _ _

end Keystroke
