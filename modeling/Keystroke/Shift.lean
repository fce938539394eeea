import Keystroke.Indentation
import Keystroke.Selection
import Keystroke.View

/-!
# Shifting lines

A shift moves the lines a selection touches one level of indentation in or out. The
leading spaces and tabs of each line are replaced by whole levels, as many as reach the
next tab stop or the one before, so crooked indentation snaps to a level. The selection
keeps to its text : `trackPosition` carries an end of it through the edits.
-/

namespace Keystroke

inductive ShiftDirection
  | indent
  | outdent
deriving DecidableEq

structure ShiftOptions where
  direction : ShiftDirection
  tabSize : Nat
  oneIndent : Text
deriving DecidableEq

/-- Edits with the selection they leave. -/
structure Shift where
  edits : List TextEdit
  cursorAfter : Selection
deriving DecidableEq

/-- The numbers from `first` to `last`. -/
def linesBetween (first last : Nat) : List Nat :=
  List.range' first (last + 1 - first)

namespace Shift

/-- The lines a shift of a range touches. A range of several lines that ends at the
start of the last one does not touch it. -/
def touchedLines (r : Range) : List Nat :=
  if r.stop.column = 1 ∧ r.start.line ≠ r.stop.line then linesBetween r.start.line (r.stop.line - 1)
  else linesBetween r.start.line r.stop.line

/-- What a shift does to one line. Outdenting leaves a line alone that has no
indentation; indenting a selection leaves its empty lines alone. -/
def lineEdit? (o : ShiftOptions) (hasSelection : Bool) (line : Nat) (text : Text) :
    Option TextEdit :=
  let indent := text.firstContent?.getD text.length
  let tabSize := max o.tabSize 1
  let replaceBy (levels : Nat) : Option TextEdit :=
    some ⟨.onLine line 1 (indent + 1), (List.replicate levels o.oneIndent).flatten⟩
  match o.direction with
  | .outdent =>
    if indent = 0 then none else replaceBy (outdentCount text (indent + 1) tabSize)
  | .indent =>
    if text = [] ∧ hasSelection then none else replaceBy (indentCount text (indent + 1) tabSize)

/-- Where a position at the end of inserted text goes. -/
inductive Association
  | before
  | after
deriving DecidableEq

/-- A position carried through edits of leading indentation, at most one a line. Past
the indentation it keeps to its character, inside it goes to the end of the new one. -/
def trackPosition (edits : List TextEdit) (a : Association) (p : Position) : Position :=
  match edits.find? fun e => e.range.start.line == p.line with
  | none => p
  | some e =>
    let oldEnd := e.range.stop.column
    if a = .before ∧ p.column = 1 then ⟨p.line, 1⟩
    else if oldEnd ≤ p.column then ⟨p.line, p.column - (oldEnd - 1) + e.text.length⟩
    else ⟨p.line, e.text.length + 1⟩

/-- A selection carried through such edits. The end that comes first stays at the start
of a line, so the selection grows over the new indentation; a caret does not. -/
def trackSelection (edits : List TextEdit) (s : Selection) : Selection :=
  let side (e : Bool) : Association := if !s.isEmpty && e then .before else .after
  ⟨trackPosition edits (side (s.direction == .forward)) s.anchor,
    trackPosition edits (side (s.direction == .backward)) s.head⟩

/-- The shift of a selection. A caret on a blank line goes to the end of its new
indentation. -/
def ofSelection (v : View) (s : Selection) (o : ShiftOptions) : Shift :=
  let edits := (touchedLines s.range).filterMap fun line =>
    lineEdit? o (!s.isEmpty) line (v.lineContent line)
  let blankCaret := s.isEmpty && (v.lineContent s.range.start.line).isBlankLine
  let cursor :=
    match edits.getLast? with
    | some e => if blankCaret then .caret e.insertedEnd else trackSelection edits s
    | none => trackSelection edits s
  ⟨edits, cursor⟩

end Shift

end Keystroke
