import Keystroke.Buffer.Apply
import Keystroke.Buffer.Brackets
import Keystroke.Operation.Indent
import Keystroke.Operation.Typing
import Keystroke.Operation.WholeLine

/-!
# Sessions

A session is a buffer being edited : the settings, the rules, the buffer, the cursor and
the number of undo stops. A step runs one operation on it and applies its command. When
the buffer refuses the command, the buffer and the cursor stay as they are; the undo
stops are counted all the same.
-/

namespace Keystroke

/-- An operation that edits the buffer. -/
inductive EditStep
  | type (t : Text)
  | typePlain (t : Text)
  | replacePrevious (t : Text) (count : Nat)
  | paste (t : Text) (wholeLine : Bool)
  /-- A line break, at the selection if no range is given. -/
  | enter (keep : Bool) (range? : Option Range)
  | tab
  | indent
  | outdent
  | openAbove
  | openBelow
  | splitLine
  | joinLines

namespace EditStep

/-- What an editing step answers. -/
def outcome (ctx : Context) (s : Selection) : EditStep → Outcome
  | type t => ctx.type s t
  | typePlain t => .typePlain s t
  | replacePrevious t count => .replacePrevious s t count
  | paste t wholeLine => ctx.paste s t wholeLine
  | enter keep range? => ctx.enter keep (range?.getD s.range)
  | tab => ctx.tab s
  | indent => ctx.indent s
  | outdent => ctx.outdent s
  | openAbove => ctx.openAbove s
  | openBelow => ctx.openBelow s
  | splitLine => ctx.splitLine s
  | joinLines => ctx.joinLines s

end EditStep

/-- An editing step, or a change of what the next ones read. -/
inductive Step
  | edit (e : EditStep)
  /-- Set the cursor. -/
  | select (s : Selection)
  /-- Set the cursor to the nearest place inside the buffer. -/
  | selectInside (s : Selection)
  | setTokens (line : Nat) (tokens : List Token)
  | setConfig (c : Config)
  | setRules (r : LanguageRules)

/-- The settings, the rules, the buffer and the cursor, and how many undo stops there are. -/
structure Session where
  config : Config
  rules : LanguageRules
  buffer : Buffer
  cursor : Selection
  undoStops : Nat := 0

namespace Buffer

/-- The nearest place inside the buffer : first the line is limited, then the column. -/
def clamp (b : Buffer) (p : Position) : Position :=
  let line := max 1 (min p.line b.lineCount)
  ⟨line, max 1 (min p.column (b.view.maxColumn line))⟩

end Buffer

/-- What a step answers besides the session it leaves. -/
structure Report where
  outcome? : Option Outcome := none
  refused? : Option BufferError := none

namespace Session

variable (s : Session)

/-- What operations read. -/
def context : Context :=
  ⟨s.config, s.buffer.view, s.rules⟩

/-- The undo stops an outcome adds. -/
def stopsOf (o : Outcome) : Nat :=
  o.pushesUndoBefore.toNat + o.pushesUndoAfter.toNat

/-- Apply an outcome's command, if it has one. -/
def run (o : Outcome) : Session × Report :=
  let counted := { s with undoStops := s.undoStops + stopsOf o }
  match o.command? with
  | none => (counted, { outcome? := some o })
  | some c =>
    match s.buffer.apply c with
    | .ok (buffer, cursor) => ({ counted with buffer, cursor }, { outcome? := some o })
    | .error e => (counted, { outcome? := some o, refused? := some e })

/-- One step, with what it did. -/
def step : Step → Session × Report
  | .edit e => s.run (e.outcome s.context s.cursor)
  | .select c => ({ s with cursor := c }, {})
  | .selectInside c =>
    ({ s with cursor := ⟨s.buffer.clamp c.anchor, s.buffer.clamp c.head⟩ }, {})
  | .setTokens line tokens => ({ s with buffer := s.buffer.setTokens line tokens }, {})
  | .setConfig c => ({ s with config := c }, {})
  | .setRules r => ({ s with rules := r }, {})

/-- The session after a list of steps. -/
def runAll (steps : List Step) : Session :=
  steps.foldl (fun s e => (s.step e).1) s

end Session

end Keystroke
