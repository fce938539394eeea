import Keystroke.Operation.LineBreak

/-!
# Whole lines

Opening a line above or below the caret's, breaking a line in front of a caret that
stays, and joining lines. Joining drops the indentation of the joined lines and puts one
space between them, none in front of a closing parenthesis.
-/

namespace Keystroke

/-! ## Joined text -/

/-- Lines joined so far, and how many characters the last one added. -/
structure Joined where
  text : Text
  lastAdded : Nat
deriving DecidableEq

namespace Joined

/-- Add the content of a line. White space at the end of what is there becomes one
space; without any, a space goes in between unless a parenthesis is closed. -/
def add (j : Joined) (segment : Text) : Joined :=
  if j.text.endsInIndent then
    ⟨j.text.trimEndIndent ++ ' ' :: segment, segment.length⟩
  else if j.text = [] ∨ segment.head? = some ')' then ⟨j.text ++ segment, segment.length⟩
  else ⟨j.text ++ ' ' :: segment, segment.length + 1⟩

/-- Add a line; one without content adds nothing. -/
def addLine (j : Joined) (line : Text) : Joined :=
  if line.content = [] then { j with lastAdded := 0 } else j.add line.content

/-- A line with the lines after it joined to it. -/
def ofLines (first : Text) (rest : List Text) : Joined :=
  rest.foldl addLine ⟨first, 0⟩

end Joined

namespace Context

variable (ctx : Context)

/-! ## Opening lines -/

/-- Open a line above the line of the caret. -/
def openAbove (s : Selection) : Outcome :=
  if s.head.line = 1 then .ofCommand (.typeBehind (.onLine 1 1 1) ['\n'])
  else ctx.breakLine false (.point (ctx.view.lineEnd (s.head.line - 1)))

/-- Open a line below the line of the caret. -/
def openBelow (s : Selection) : Outcome :=
  ctx.breakLine false (.point (ctx.view.lineEnd s.head.line))

/-- Break the line at a selection; the caret stays where it is. -/
def splitLine (s : Selection) : Outcome :=
  ctx.breakLine true s.range

/-! ## Joining lines -/

/-- The last line a join of a range takes in : the last of several, or the one after the
only one. -/
def joinEnd (r : Range) : Nat :=
  if r.isSingleLine then min (r.start.line + 1) ctx.view.lineCount else r.stop.line

/-- The lines a join replaces. -/
def joinRange (r : Range) : Range :=
  .ofEnds ⟨r.start.line, 1⟩ (ctx.view.lineEnd (ctx.joinEnd r))

/-- The text a join puts in their place. -/
def joined (r : Range) : Joined :=
  .ofLines (ctx.view.lineContent r.start.line)
    ((linesBetween (r.start.line + 1) (ctx.joinEnd r)).map ctx.view.lineContent)

/-- Characters after a position on its line, not counting the line's indentation. -/
def charsAfter (p : Position) : Nat :=
  match ctx.view.firstContentColumn? p.line with
  | some first => ctx.view.lineLength p.line - (max p.column first - 1)
  | none => 0

/-- Where the caret is after a join : between the last line and the ones before it for
a caret, on the same characters for a selection. -/
def joinPlacement (s : Selection) : Placement :=
  if s.isEmpty then .offset 0 (-((ctx.joined s.range).lastAdded : Int))
  else if s.isSingleLine then .preserve s
  else .offset 0 (-(ctx.charsAfter s.range.stop : Int))

/-- Join the lines of a selection, or the line of a caret with the next one. -/
def joinLines (s : Selection) : Outcome :=
  let r := ctx.joinRange s.range
  if r.isEmpty then .noop
  else
    (Outcome.ofCommand (.replace ⟨r, (ctx.joined s.range).text⟩ (ctx.joinPlacement s)))
      |>.withBoundaries

end Context

end Keystroke
