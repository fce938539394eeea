import Keystroke.Buffer.Basic
import Keystroke.View

/-!
# Matching brackets

`Buffer.openerAbove?` looks for the opener that a closer at a position would match : it
reads the text before the position backwards and skips over pairs that are closed
already. Closers are counted before openers, so a pair whose two sides are the same
character never has an unmatched opener.
-/

namespace Keystroke

/-- The distance from the end of the nearest unmatched opener in a text that is read
backwards, with so many closers read already. -/
def unmatchedOpener? (opener closer : Char) : (depth : Nat) → Text → Option Nat
  | _, [] => none
  | depth, c :: t =>
    if c = closer then (unmatchedOpener? opener closer (depth + 1) t).map (· + 1)
    else if c = opener then
      match depth with
      | 0 => some 0
      | d + 1 => (unmatchedOpener? opener closer d t).map (· + 1)
    else (unmatchedOpener? opener closer depth t).map (· + 1)

namespace Buffer

variable (b : Buffer)

/-- The first registered pair that a bracket is one side of. -/
def pairOf? (bracket : Char) : Option (Char × Char) :=
  b.brackets.find? fun p => p.1 == bracket || p.2 == bracket

/-- Index of the nearest unmatched opener below an index. -/
def openerBelow? (opener closer : Char) (i : Nat) : Option Nat :=
  (unmatchedOpener? opener closer 0 (b.text.take i).reverse).map fun back => i - 1 - back

/-- The range of the nearest unmatched opener before a position. -/
def openerAbove? (bracket : Char) (p : Position) : Option Range := do
  let (opener, closer) ← b.pairOf? bracket
  let i ← (b.charIndex? p).toOption
  let j ← b.openerBelow? opener closer i
  let start := b.positionAt j
  return .ofEnds start (start.offset 0 1)

/-- What operations see of the buffer. -/
def view : View :=
  let ls := b.lines
  { lineCount := ls.length
    lineContent := contentIn ls
    lineTokens := b.lineTokens
    openerAbove? := b.openerAbove?
    lineContent_eq_nil := contentIn_of_lt }

@[simp] theorem view_lineCount : b.view.lineCount = b.lineCount := rfl

@[simp] theorem view_lineContent (line : Nat) : b.view.lineContent line = b.lineContent line := rfl

end Buffer

end Keystroke
