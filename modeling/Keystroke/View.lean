import Keystroke.Position
import Keystroke.Text.Scan
import Keystroke.Tokens

/-!
# Views

What an operation may ask of the buffer it works on. Lines and columns are counted from
one, and a line past the last has no content. A view is any such four answers; a buffer
is one source of them.
-/

namespace Keystroke

structure View where
  lineCount : Nat
  /-- A line without its terminator. -/
  lineContent : Nat → Text
  lineTokens : Nat → LineTokens
  /-- The nearest unmatched opener of a bracket's pair before a position. Either side
  of the pair names it. -/
  openerAbove? : Char → Position → Option Range
  lineContent_eq_nil : ∀ {line : Nat}, lineCount < line → lineContent line = []

namespace View

variable (v : View)

def lineLength (line : Nat) : Nat :=
  (v.lineContent line).length

/-- The first column of a line. -/
def minColumn (_v : View) (_line : Nat) : Nat :=
  1

/-- The column after the last character of a line. -/
def maxColumn (line : Nat) : Nat :=
  v.lineLength line + 1

/-- Column of the first character that is not a space or a tab. -/
def firstContentColumn? (line : Nat) : Option Nat :=
  (v.lineContent line).firstContent?.map (· + 1)

/-- The position after the last character of a line. -/
def lineEnd (line : Nat) : Position :=
  ⟨line, v.maxColumn line⟩

/-! ## Lines with content -/

/-- The last of the first so many lines that holds more than spaces and tabs. -/
def lastContentLine? : (count : Nat) → Option Nat
  | 0 => none
  | n + 1 => if (v.lineContent (n + 1)).hasContent then some (n + 1) else lastContentLine? n

/-- The nearest line above a line that holds more than spaces and tabs. It is one of the
lines there are. -/
def contentAbove? (line : Nat) : Option Nat :=
  v.lastContentLine? (min (line - 1) v.lineCount)

/-- A count past the last line finds the same line. -/
theorem lastContentLine?_of_le {count : Nat} (h : v.lineCount ≤ count) :
    v.lastContentLine? count = v.lastContentLine? v.lineCount := by
  induction count with
  | zero => rw [Nat.le_zero.mp h]
  | succ n ih =>
    rcases Nat.lt_or_eq_of_le h with h | h
    · rw [lastContentLine?, v.lineContent_eq_nil h, ih (Nat.le_of_lt_succ h)]
      rfl
    · rw [h]

theorem lastContentLine?_eq_some_iff {count line : Nat} :
    v.lastContentLine? count = some line ↔
      0 < line ∧ line ≤ count ∧ (v.lineContent line).hasContent = true ∧
        ∀ other, line < other → other ≤ count → (v.lineContent other).hasContent = false := by
  induction count with
  | zero => simp only [lastContentLine?, reduceCtorEq, false_iff]; omega
  | succ n ih =>
    rw [lastContentLine?]
    split
    · rename_i hc
      constructor
      · rintro ⟨⟩
        exact ⟨by omega, by omega, hc, fun other h₁ h₂ => by omega⟩
      · rintro ⟨_, hle, _, hall⟩
        by_cases he : line = n + 1
        · rw [he]
        · simp [hall (n + 1) (by omega) (by omega)] at hc
    · rename_i hc
      rw [ih]
      constructor
      · rintro ⟨h₁, h₂, h₃, h₄⟩
        refine ⟨h₁, by omega, h₃, fun other h₅ h₆ => ?_⟩
        by_cases he : other = n + 1
        · simpa [he] using hc
        · exact h₄ other h₅ (by omega)
      · rintro ⟨h₁, h₂, h₃, h₄⟩
        refine ⟨h₁, ?_, h₃, fun other h₅ h₆ => h₄ other h₅ (by omega)⟩
        by_cases he : line = n + 1
        · exact absurd (he ▸ h₃) hc
        · omega

/-- The line found is the last one above that has content, existing or not. -/
theorem contentAbove?_eq (line : Nat) : v.contentAbove? line = v.lastContentLine? (line - 1) := by
  rcases Nat.le_total (line - 1) v.lineCount with h | h
  · rw [contentAbove?, Nat.min_eq_left h]
  · rw [contentAbove?, Nat.min_eq_right h, v.lastContentLine?_of_le h]

end View

end Keystroke
