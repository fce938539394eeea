import Keystroke.Buffer.Basic
import Keystroke.Command

/-!
# Applying commands

`Buffer.apply` replaces the ranges of a command's edits. All of them are located before
anything changes, so a command with an end outside the buffer changes nothing; then the
replacements are made from the last to the first, which keeps the indices of those still
to come. Tokens set for the old text are dropped.
-/

namespace Keystroke

/-- A replacement of the characters from index `first` to below `last`. -/
structure Splice where
  first : Nat
  last : Nat
  text : Text
deriving DecidableEq

namespace Splice

def apply (s : Splice) (t : Text) : Text :=
  t.take s.first ++ s.text ++ t.drop s.last

/-- Make the replacements, the last one first. -/
def applyAll (splices : List Splice) (t : Text) : Text :=
  splices.foldr apply t

end Splice

namespace Buffer

variable (b : Buffer)

/-- Locate an edit. The start is looked up before the end. -/
def splice? (e : TextEdit) : Except BufferError Splice := do
  let first ← b.charIndex? e.range.start
  let last ← b.charIndex? e.range.stop
  return ⟨first, last, e.text⟩

/-- Locate edits, in order. -/
def splices? : List TextEdit → Except BufferError (List Splice)
  | [] => .ok []
  | e :: es => do
    let s ← b.splice? e
    let ss ← splices? es
    return s :: ss

/-- The buffer after a command and the selection the command leaves, or the first
position that is outside the buffer. -/
def apply (c : Command) : Except BufferError (Buffer × Selection) := do
  let splices ← b.splices? c.edits
  return ({ b with text := Splice.applyAll splices b.text, tokens := [] }, c.cursorAfter)

end Buffer

end Keystroke
