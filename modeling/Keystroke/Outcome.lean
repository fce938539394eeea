import Keystroke.Command
import Keystroke.Config.Basic
import Keystroke.Rules.Basic

/-!
# Contexts and outcomes

Operations change nothing. Besides the cursor each reads the settings, the buffer and the
language rules, and it answers with an outcome : one command or none, and how the caller
should treat it. An outcome without a command means that there is nothing to do, whatever
its flags say : no undo boundary, no scrolling.
-/

namespace Keystroke

/-- What every operation reads besides the cursor. -/
structure Context where
  config : Config
  view : View
  rules : LanguageRules

/-- Why the cursor moved. -/
inductive CursorReason
  | notSet
  | paste
  | explicit
deriving DecidableEq

/-- A command, if there is one, with flags for the caller. -/
structure Outcome where
  command? : Option Command
  boundaryBefore : Bool := false
  boundaryAfter : Bool := false
  whitespace : Bool := false
  reason : CursorReason := .notSet
  reveal : Bool := true
deriving DecidableEq

namespace Outcome

def ofCommand (c : Command) : Outcome :=
  { command? := some c }

/-- Nothing to do. -/
def noop : Outcome :=
  { command? := none, reveal := false }

variable (o : Outcome)

/-! ## Marking -/

/-- Undo stops in front of the command. -/
def withBoundaryBefore : Outcome :=
  { o with boundaryBefore := true }

/-- Undo stops behind the command. -/
def withBoundaryAfter : Outcome :=
  { o with boundaryAfter := true }

/-- Undo stops on both sides. -/
def withBoundaries : Outcome :=
  o.withBoundaryBefore.withBoundaryAfter

/-- The whitespace was put in by the editor and may be taken out by it. -/
def withAutoWhitespace : Outcome :=
  { o with whitespace := true }

def withReason (r : CursorReason) : Outcome :=
  { o with reason := r }

/-- Do not scroll sideways to show the caret. -/
def withoutReveal : Outcome :=
  { o with reveal := false }

/-! ## Reading -/

def isNoop : Bool :=
  o.command?.isNone

/-- There is an undo stop in front, if there is a command. -/
def pushesUndoBefore : Bool :=
  o.command?.isSome && o.boundaryBefore

def pushesUndoAfter : Bool :=
  o.command?.isSome && o.boundaryAfter

/-- The command puts in white space of the editor. -/
def isAutoWhitespace : Bool :=
  o.command?.isSome && o.whitespace

def revealsHorizontally : Bool :=
  o.command?.isSome && o.reveal

/-- The outcome, unless there is nothing to do. -/
def toOption : Option Outcome :=
  if o.isNoop then none else some o

end Outcome

end Keystroke
