import Keystroke.Column
import Keystroke.Text.Scan

/-!
# Indentation

An indentation style says how wide a tab is and whether indentation is written with
spaces or with tabs. `normalize` puts the leading spaces and tabs of a text in a style
and leaves the rest; each tab counts as a full tab size there, wherever it stands. As many
bytes are set aside for that as the indentation is wide, in either style, and `normalize?`
is none where there cannot be so many, or where the text would take too many itself. The
counts say how many levels of indentation a line has after it is shifted to the next tab
stop or back to the one before.
-/

namespace Keystroke

structure IndentStyle where
  tabSize : Nat
  insertSpaces : Bool
deriving DecidableEq

/-- The width of a run of spaces and tabs, each tab a full tab size, summed up as words. -/
def indentWidth (tabSize : Nat) : Text → Nat
  | [] => 0
  | c :: t => addWord (if c = '\t' then tabSize else 1) (indentWidth tabSize t)

namespace IndentStyle

variable (s : IndentStyle)

/-- Indentation of the given width. -/
def ofWidth (width : Nat) : Text :=
  if s.insertSpaces then List.replicate width ' '
  else List.replicate (width / s.tabSize) '\t' ++ List.replicate (width % s.tabSize) ' '

/-- The text with its leading spaces and tabs put in the style. -/
def normalize (t : Text) : Text :=
  s.ofWidth (indentWidth s.tabSize t.leadingIndent) ++ t.content

/-- How many characters indentation of the given width has. -/
def lengthOfWidth (width : Nat) : Nat :=
  if s.insertSpaces then width else width / s.tabSize + width % s.tabSize

/-- As `normalize`, but no text takes more than `maxBytes`, neither what is set aside nor what
comes out, and tabs of size zero cannot be counted out. -/
def normalize? (t : Text) : Option Text :=
  let width := indentWidth s.tabSize t.leadingIndent
  let rest := t.content.byteLength
  if s.insertSpaces = false ∧ s.tabSize = 0 then none
  else if maxBytes < addWord width rest ∨ maxBytes < s.lengthOfWidth width + rest then none
  else some (s.normalize t)

/-- One level of indentation. -/
def oneIndent : Text :=
  if s.insertSpaces then List.replicate s.tabSize ' ' else ['\t']

end IndentStyle

/-- Levels of indentation at the tab stop after the content that starts in the 1-based
`column`. -/
def indentCount (line : Text) (column tabSize : Nat) : Nat :=
  nextTabStop (visibleColumn line column tabSize) tabSize / tabSize

/-- Levels of indentation at the tab stop before the content that starts in the 1-based
`column`. -/
def outdentCount (line : Text) (column tabSize : Nat) : Nat :=
  prevTabStop (visibleColumn line column tabSize) tabSize / tabSize

/-- Both counts; without tab stops there is neither. -/
def indentCounts? (line : Text) (column tabSize : Nat) : Option (Nat × Nat) :=
  if tabSize = 0 then none
  else some (indentCount line column tabSize, outdentCount line column tabSize)

end Keystroke
