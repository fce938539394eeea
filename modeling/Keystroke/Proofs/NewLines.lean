import Keystroke.Proofs.BrokenLine
import Keystroke.Proofs.BrokenSelection
import Keystroke.Proofs.IndentColumn

/-!
# The new lines of a break

Under rules that answer with spaces and tabs, the new lines of a break are spaces and tabs
as well. Their width is that of the indentation in the answer and of what goes behind it,
but an outdent first goes back to the tab stop before (`EnterAnswer.Asks`). The new lines
come in place of the range, the same ones whether the caret stays in front of them or goes
to the end of the first (`Session.enter_newLines`). This is so if there is room for what the
answer asks for (`EnterAnswer.Fits`); of four tabs that are as wide as all words together
nothing is left (`Session.enter_newLines_lost`).
-/

namespace Keystroke

open Text Position

/-! ## Widths -/

/-- The tab stop before the end of spaces and tabs, in levels. -/
theorem outdentCount_indent {tabSize : Nat} {t : Text} (h : AllIndent t)
    (hle : stopWidth tabSize t ≤ maxWord) :
    outdentCount t (t.length + 1) tabSize = (stopWidth tabSize t - 1) / tabSize := by
  have hcontent : StartsCluster t.content := by
    rw [h.content]
    rintro _ ⟨⟩
  have hcount : outdentCount t (t.leadingIndent.length + 1) tabSize = _ :=
    outdentCount_leadingIndent hcontent (by rwa [h.leadingIndent])
  rwa [h.leadingIndent] at hcount

theorem spacing_outdentAsTabs {tabSize : Nat} {t : Text} (h : AllIndent t)
    (hle : stopWidth tabSize t ≤ maxWord) :
    (outdentAsTabs t tabSize).spacing tabSize =
      tabSize * ((stopWidth tabSize t - 1) / tabSize) := by
  rw [outdentAsTabs, spacing_tabs, outdentCount_indent h hle]

namespace EnterAnswer

variable {a : EnterAnswer}

theorem allIndent_appended (h : AllIndent a.append) : AllIndent a.appended := by
  have htab : AllIndent (if a.append = [] then ['\t'] else a.append) := by
    split
    · exact allIndent_replicate (by decide) 1
    · exact h
  unfold appended
  cases a.action with
  | keep => exact h
  | indent => exact htab
  | indentOutdent => exact htab
  | outdent => exact h

/-- The width of the first new line that an answer asks for. -/
def innerWidth (a : EnterAnswer) (tabSize : Nat) : Nat :=
  match a.action with
  | .outdent =>
    tabSize * ((stopWidth tabSize a.indentation - 1) / tabSize) + a.appended.spacing tabSize
  | .keep | .indent | .indentOutdent =>
    a.indentation.spacing tabSize + a.appended.spacing tabSize

/-- There is room for the first new line, and a word holds the column that an outdent is counted
from. -/
structure Fits (a : EnterAnswer) (tabSize : Nat) : Prop where
  inner : a.innerWidth tabSize ≤ maxBytes
  column : a.action = .outdent → stopWidth tabSize a.indentation ≤ maxWord

/-- A first new line, and what comes behind it, have the widths that an answer asks for. -/
structure Asks (a : EnterAnswer) (tabSize : Nat) (inner outer : Text) : Prop where
  inner_indent : AllIndent inner
  inner_width : inner.spacing tabSize = a.innerWidth tabSize
  /-- A second new line. -/
  outer_split : a.action = .indentOutdent → ∃ line : Text, outer = '\n' :: line ∧
    AllIndent line ∧ line.spacing tabSize = a.indentation.spacing tabSize
  outer_nil : a.action ≠ .indentOutdent → outer = []

end EnterAnswer

namespace Config

variable (c : Config) {a : EnterAnswer} (hi : AllIndent a.indentation)

include hi

theorem allIndent_breakIndent (ha : AllIndent a.append) : AllIndent (c.breakIndent a) := by
  have happended := EnterAnswer.allIndent_appended ha
  unfold breakIndent
  cases a.action with
  | keep => exact hi.append happended
  | indent => exact hi.append happended
  | indentOutdent => exact hi.append happended
  | outdent => exact (allIndent_outdentAsTabs _ _).append happended

theorem spacing_breakIndent
    (hcolumn : a.action = .outdent → stopWidth c.tabSize a.indentation ≤ maxWord) :
    (c.breakIndent a).spacing c.tabSize = a.innerWidth c.tabSize := by
  unfold breakIndent EnterAnswer.innerWidth
  cases haction : a.action with
  | keep => exact spacing_append _ _ _
  | indent => exact spacing_append _ _ _
  | indentOutdent => exact spacing_append _ _ _
  | outdent =>
    simp only
    rw [spacing_append, spacing_outdentAsTabs hi (hcolumn haction)]

/-- The lines that a break puts in are those that the answer asks for. -/
theorem asks_newLines (ha : AllIndent a.append) (hfits : a.Fits c.tabSize) :
    a.Asks c.tabSize (c.innerLine a) (c.outerLine a) where
  inner_indent := c.style.allIndent_normalize (c.allIndent_breakIndent hi ha)
  inner_width := by
    have hwidth := c.spacing_breakIndent hi hfits.column
    have hle := le_maxWord hfits.inner
    rw [← hwidth] at hle ⊢
    exact c.style.spacing_normalize (c.allIndent_breakIndent hi ha) hle
  outer_split h := by
    -- the second line is as wide as the first one without what is appended
    have hwidth : a.innerWidth c.tabSize =
        a.indentation.spacing c.tabSize + a.appended.spacing c.tabSize := by
      simp only [EnterAnswer.innerWidth, h]
    have hle := le_maxWord hfits.inner
    exact ⟨c.normalize a.indentation, c.outerLine_of_eq h, c.style.allIndent_normalize hi,
      c.style.spacing_normalize hi (Nat.le_trans (Nat.le_add_right _ _) (hwidth ▸ hle))⟩
  outer_nil := c.outerLine_of_ne

end Config

/-! ## Breaks in a session -/

namespace Session

/-- A line break in place of a range puts in a line feed, a first new line and what comes
behind that, and the caret stays in front or goes to the end of the first new line. -/
structure Breaks (s : Session) (keep : Bool) (r : Range) (before after inner outer : Text) :
    Prop where
  edits : ((EditStep.enter keep (some r)).outcome s.context s.cursor).command?.map
    Command.edits = some [⟨r, '\n' :: inner ++ outer⟩]
  unrefused : (s.step (.edit (.enter keep (some r)))).2.refused? = none
  /-- The new lines come where the range started. -/
  start : (s.step (.edit (.enter keep (some r)))).1.buffer.Between r.start before
    ('\n' :: inner ++ outer ++ after)
  /-- The first of them ends on the line below. -/
  inner_end : (s.step (.edit (.enter keep (some r)))).1.buffer.Between
    ⟨r.start.line + 1, inner.length + 1⟩ (before ++ '\n' :: inner) (outer ++ after)
  /-- From behind a second line the caret goes back to a column that a coordinate has to hold. -/
  cursor : (keep = false → outer ≠ [] → inner.length < maxCoordinate) →
    (s.step (.edit (.enter keep (some r)))).1.cursor =
      .caret (if keep then r.start else ⟨r.start.line + 1, inner.length + 1⟩)

variable {s : Session} {r : Range} {a : EnterAnswer} {before covered after : Text}

/-- A line break over a range that cuts the text in three. -/
theorem breaks_of_cut (keep : Bool) (hb : NoBareReturn s.buffer.text)
    (hcut : s.buffer.Cut r before covered after)
    (hanswer : s.rules.enter? s.buffer.view r.start.line r.start.column = some a)
    (ha : Unbroken a.indentation ∧ Unbroken a.append) :
    s.Breaks keep r before after (s.config.innerLine a) (s.config.outerLine a) := by
  have hcommand : ((EditStep.enter keep (some r)).outcome s.context s.cursor).command? =
      some (.replace ⟨r, s.config.breakText a⟩ (s.config.breakPlacement a keep)) :=
    Context.enter_of_some keep hanswer
  have hdone : s.EditsTo (.enter keep (some r)) _ _ := editsTo_break hcut hanswer
  obtain ⟨hbefore, -, -⟩ := hcut.noBareReturn hb
  have hstart : (s.step (.edit (.enter keep (some r)))).1.buffer.Between r.start before
      (s.config.breakText a ++ after) :=
    ⟨by rw [hdone.text, List.append_assoc], hbefore.not_fuses _, hcut.start⟩
  have hend := hstart.newLine_end hbefore.not_fuses ha
  refine ⟨by rw [hcommand]; rfl, hdone.unrefused, hstart, hend, fun hroom => ?_⟩
  rw [hdone.cursor]
  cases keep with
  | true => rfl
  | false =>
    rw [← Placement.cursorAfter_point]
    exact s.config.cursorAfter_breakPlacement ha (hroom rfl)

end Session

end Keystroke
