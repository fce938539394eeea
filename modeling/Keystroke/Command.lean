import Keystroke.Shift

/-!
# Commands

A command says what to replace and where the selection is afterwards. It touches no
buffer : `edits` lists its replacements in document order, `cursorAfter` is the
selection it leaves, in the coordinates after the edits.
-/

namespace Keystroke

/-- Where a replacement leaves the caret. -/
inductive Placement
  /-- At the end of the inserted text. -/
  | followText
  /-- At the start of the replaced range. -/
  | keepPosition
  /-- At a distance from the end of the inserted text. -/
  | offset (lines columns : Int)
  /-- Exactly this selection. -/
  | preserve (selection : Selection)
deriving DecidableEq

namespace Placement

def cursorAfter (e : TextEdit) : Placement → Selection
  | followText => .caret e.insertedEnd
  | keepPosition => .caret e.range.start
  | offset lines columns => .caret (e.insertedEnd.offset lines columns)
  | preserve selection => selection

end Placement

/-- One of three ways to change a buffer. -/
inductive Command
  | replace (edit : TextEdit) (placement : Placement)
  /-- Wrap a selection in a pair of characters and keep the wrapped text selected. -/
  | surround (selection : Selection) (opener closer : Char)
  | shift (shift : Shift)
deriving DecidableEq

namespace Command

/-- Replace a range; the caret follows the text. -/
def type (r : Range) (t : Text) : Command :=
  replace ⟨r, t⟩ .followText

/-- Replace a range; the caret stays in front. -/
def typeBehind (r : Range) (t : Text) : Command :=
  replace ⟨r, t⟩ .keepPosition

/-- Replace a range; the caret is at a distance from the end of the text. -/
def typeOffset (r : Range) (t : Text) (lines columns : Int) : Command :=
  replace ⟨r, t⟩ (.offset lines columns)

/-- The selection around the wrapped text, once the pair is in place. -/
def wrappedSelection (s : Selection) : Selection :=
  let r := s.range
  let stop := if r.isSingleLine then r.stop.offset 0 1 else r.stop
  .ofRange (.ofEnds (r.start.offset 0 1) stop) s.direction

/-- The replacements, in document order. -/
def edits : Command → List TextEdit
  | replace e _ => [e]
  | surround s opener closer => [.insertAt s.range.start [opener], .insertAt s.range.stop [closer]]
  | shift s => s.edits

def cursorAfter : Command → Selection
  | replace e p => p.cursorAfter e
  | surround s _ _ => wrappedSelection s
  | shift s => s.cursorAfter

end Command

end Keystroke
