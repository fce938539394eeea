import Keystroke.Outcome

/-!
# Line breaks

A line break puts the indentation on the new line that the language rules ask for,
written in the configured style. `Context.goodIndent` is the indentation a blank line
should have : what a line break at the end of the nearest line with content above it
would give.
-/

namespace Keystroke

namespace EnterAnswer

/-- The text after the indentation on the new line. An answer that indents and gives no
text goes one level deeper. -/
def appended (a : EnterAnswer) : Text :=
  match a.action with
  | .indent | .indentOutdent => if a.append = [] then ['\t'] else a.append
  | .keep | .outdent => a.append

end EnterAnswer

/-- Indentation one level further out, written with tabs. -/
def outdentAsTabs (indentation : Text) (tabSize : Nat) : Text :=
  List.replicate (outdentCount indentation (indentation.length + 1) tabSize) '\t'

/-- Replace a range by a text and put the caret behind it or leave it in front. -/
def Command.typeKeeping (keep : Bool) (r : Range) (t : Text) : Command :=
  if keep then .typeBehind r t else .type r t

namespace Context

variable (ctx : Context)

/-- The command of a line break the rules have an answer for. The caret goes to the end
of the first new line, or stays in front of the break if `keep` is set. -/
def breakCommand (keep : Bool) (r : Range) (a : EnterAnswer) : Command :=
  let deeper := ctx.config.normalize (a.indentation ++ a.appended)
  match a.action with
  | .keep | .indent => .typeKeeping keep r ('\n' :: deeper)
  | .indentOutdent =>
    let normal := ctx.config.normalize a.indentation
    let text := '\n' :: deeper ++ '\n' :: normal
    if keep then .typeBehind r text
    else .typeOffset r text (-1) ((deeper.length : Int) - normal.length)
  | .outdent =>
    let outer := outdentAsTabs a.indentation ctx.config.tabSize
    .typeKeeping keep r ('\n' :: ctx.config.normalize (outer ++ a.appended))

/-- Break the line at a range, which is replaced; nothing to do if the rules have no
answer. Undo stops in front of the break and not behind it, so what is typed on the new
line is undone with it. -/
def enter (keep : Bool) (r : Range) : Outcome :=
  match ctx.rules.enter? ctx.view r.start.line r.start.column with
  | some a => (Outcome.ofCommand (ctx.breakCommand keep r a)).withBoundaryBefore.withAutoWhitespace
  | none => .noop

/-- Break the line at a range, with no indentation if the rules have no answer. -/
def breakLine (keep : Bool) (r : Range) : Outcome :=
  (ctx.enter keep r).toOption.getD
    (Outcome.ofCommand (.typeKeeping keep r ['\n'])).withBoundaryBefore

/-- The indentation a line break at the end of a line gives, before it is written in
the configured style. -/
def indentAfter (line : Nat) : Text :=
  let a := (ctx.rules.enter? ctx.view line (ctx.view.maxColumn line)).getD
    { indentation := (ctx.view.lineContent line).leadingIndent }
  let indentation :=
    match a.action with
    | .outdent => ctx.config.normalize (outdentAsTabs a.indentation ctx.config.tabSize)
    | .keep | .indent | .indentOutdent => a.indentation
  indentation ++ a.appended

/-- The indentation a blank line should have; a tab if there is no line with content
above it, or if that line asks for none. -/
def goodIndent (line : Nat) : Text :=
  match ctx.view.contentAbove? line with
  | none => ['\t']
  | some above => if ctx.indentAfter above = [] then ['\t'] else ctx.indentAfter above

end Context

end Keystroke
