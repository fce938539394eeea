import Keystroke.Operation.LineBreak

/-!
# Tab, indenting and outdenting

Tab on a blank line indents it the way a line break above would have, once. Elsewhere it
jumps to the next tab stop, and over whole lines it indents them. Indenting and
outdenting shift the lines the selection touches.
-/

namespace Keystroke.Context

variable (ctx : Context)

/-- Shift the lines a selection touches. -/
def shift (d : ShiftDirection) (s : Selection) : Outcome :=
  let o : ShiftOptions := ⟨d, ctx.config.tabSize, ctx.config.oneIndent⟩
  (Outcome.ofCommand (.shift (.ofSelection ctx.view s o))).withBoundaries

/-- Indent the lines a selection touches by a level. -/
def indent (s : Selection) : Outcome :=
  ctx.shift .indent s

/-- Outdent the lines a selection touches by a level. -/
def outdent (s : Selection) : Outcome :=
  ctx.shift .outdent s

/-- The white space that reaches the next tab stop from a position. -/
def jumpText (p : Position) : Text :=
  if ctx.config.insertSpaces then
    let x := visibleColumn (ctx.view.lineContent p.line) p.column ctx.config.tabSize
    List.replicate (tabWidthAt x ctx.config.tabSize) ' '
  else ['\t']

/-- Replace a selection by white space up to the next tab stop. -/
def jump (s : Selection) : Outcome :=
  .ofCommand (.type s.range (ctx.jumpText s.start))

/-- Whether a range is more or less than whole lines. -/
def isPartial (r : Range) : Bool :=
  r.isSingleLine && (r.start.column != 1 || r.stop.column != ctx.view.maxColumn r.start.line)

/-- The indentation a caret's line is to get from Tab : its good indentation, if the
line is blank and does not start with that already. -/
def reindent? (line : Nat) : Option Text :=
  let text := ctx.view.lineContent line
  let good := ctx.config.normalize (ctx.goodIndent line)
  if text.isBlankLine && !good.isPrefixOf text then some good else none

def tab (s : Selection) : Outcome :=
  if s.isEmpty then
    let line := s.start.line
    match ctx.reindent? line with
    | some good =>
      (Outcome.ofCommand (.type (.onLine line 1 (ctx.view.maxColumn line)) good)).withAutoWhitespace
    | none => ctx.jump s
  else if ctx.isPartial s.range then ctx.jump s
  else ctx.indent s

end Keystroke.Context
