import Keystroke.Proofs.Inserted
import Keystroke.Proofs.LineBreak
import Keystroke.Proofs.OneLine

/-!
# The lines a break makes

The lines of a text put in at a caret go between the two parts of the caret's line
(`Text.lines_insert`). A line break puts in a line feed, so the line ends where the caret
was, and what followed the caret is at the end of the last new line
(`Buffer.exists_apply_break`). The caret goes to the end of the first new line whatever was
asked for (`Config.cursorAfter_breakPlacement`).
-/

namespace Keystroke

open Text Position

/-! ## Lines put in -/

namespace Text

variable {s t u : Text} {above mid below : List Line} {lead first e' last tail e : Text}

/-- The first line of a text goes on in the line it is put in, and its last line goes on in
what is left of that. -/
theorem lines_insert (hs : lines s = above ++ [⟨lead, []⟩])
    (ht : lines t = ⟨first, e'⟩ :: (mid ++ [⟨last, []⟩])) (hu : lines u = ⟨tail, e⟩ :: below)
    (hst : ¬Fuses s t) (htu : ¬Fuses (s ++ t) u) :
    lines (s ++ t ++ u) = above ++ ⟨lead ++ first, e'⟩ :: (mid ++ ⟨last ++ tail, e⟩ :: below) := by
  have hfirst : lines (s ++ t) = (above ++ ⟨lead ++ first, e'⟩ :: mid) ++ [⟨last, []⟩] := by
    rw [lines_append hs ht hst]
    simp
  rw [lines_append hfirst hu htu]
  simp

end Text

/-- The largest coordinate is not passed by moving to a coordinate there is. -/
theorem Position.moveCoordinate_eq {x y : Nat} {d : Int} (hy : 1 ≤ y) (hmax : y ≤ maxCoordinate)
    (h : (x : Int) + d = y) : moveCoordinate x d = y := by
  cases d with
  | ofNat d =>
    have hsum : x + d = y := by
      have hcast : (x : Int) + d = y := h
      omega
    rw [moveCoordinate]
    omega
  | negSucc d =>
    rw [moveCoordinate]
    omega

/-! ## The text of a break -/

theorem Text.lines_lineFeed (t : Text) : lines ('\n' :: t) = ⟨[], ['\n']⟩ :: lines t :=
  lines_break_append (.inr ⟨'\n', by decide, rfl⟩) fun hf => absurd hf.1 (by decide)

theorem Text.lines_unbroken {t : Text} (h : Unbroken t) : lines t = [⟨t, []⟩] := by
  simpa using lines_unbroken_append h (show lines [] = [⟨[], []⟩] from rfl)

namespace Config

variable (c : Config) {a : EnterAnswer} (ha : Unbroken a.indentation ∧ Unbroken a.append)

include ha

theorem unbroken_innerLine : Unbroken (c.innerLine a) := by
  have happended := EnterAnswer.unbroken_appended ha.2
  have houter := unbroken_outdentAsTabs a.indentation c.tabSize
  refine c.style.unbroken_normalize ?_
  unfold breakIndent
  cases a.action with
  | keep => exact unbroken_append.mpr ⟨ha.1, happended⟩
  | indent => exact unbroken_append.mpr ⟨ha.1, happended⟩
  | indentOutdent => exact unbroken_append.mpr ⟨ha.1, happended⟩
  | outdent => exact unbroken_append.mpr ⟨houter, happended⟩

/-- A break makes one new line unless it splits a pair of brackets. -/
theorem lines_breakText (h : a.action ≠ .indentOutdent) :
    lines (c.breakText a) = ⟨[], ['\n']⟩ :: ([] ++ [⟨c.innerLine a, []⟩]) := by
  rw [breakText, c.outerLine_of_ne h, List.append_nil, lines_lineFeed,
    lines_unbroken (c.unbroken_innerLine ha)]
  rfl

/-- Between brackets it makes two. -/
theorem lines_breakText_indentOutdent (h : a.action = .indentOutdent) :
    lines (c.breakText a) =
      ⟨[], ['\n']⟩ :: ([⟨c.innerLine a, ['\n']⟩] ++ [⟨c.normalize a.indentation, []⟩]) := by
  have hnormal : Unbroken (c.normalize a.indentation) := c.style.unbroken_normalize ha.1
  have hrest : lines ('\n' :: c.normalize a.indentation) = _ := lines_lineFeed _
  rw [breakText, c.outerLine_of_eq h, List.cons_append, lines_lineFeed,
    lines_unbroken_append (c.unbroken_innerLine ha) hrest, lines_unbroken hnormal]
  simp

theorem noBareReturn_breakText : NoBareReturn (c.breakText a) := by
  have hinner := (c.unbroken_innerLine ha).noBareReturn_lineFeed
  have hnormal : Unbroken (c.normalize a.indentation) := c.style.unbroken_normalize ha.1
  unfold breakText outerLine
  cases a.action with
  | keep => simpa using hinner
  | indent => simpa using hinner
  | outdent => simpa using hinner
  | indentOutdent => exact hinner.append hnormal.noBareReturn_lineFeed

/-- Behind one new line the caret is at the end of the text put in. -/
theorem cursorAfter_breakPlacement_of_ne {p : Position} (h : a.action ≠ .indentOutdent) :
    (c.breakPlacement a false).cursorAfter ⟨.point p, c.breakText a⟩ =
      .caret ⟨p.line + 1, (c.innerLine a).length + 1⟩ := by
  have hfollow : c.breakPlacement a false = .followText := by
    unfold breakPlacement
    cases haction : a.action with
    | keep => rfl
    | indent => rfl
    | outdent => rfl
    | indentOutdent => exact absurd haction h
  rw [hfollow, breakText, c.outerLine_of_ne h, List.append_nil,
    ← traverse_lineFeed (c.unbroken_innerLine ha) p]
  rfl

/-- Between brackets the caret goes up a line from the end of the text put in, and along that
by as much as the two new lines differ in length. -/
theorem cursorAfter_breakPlacement_of_eq {p : Position} (h : a.action = .indentOutdent) :
    (c.breakPlacement a false).cursorAfter ⟨.point p, c.breakText a⟩ =
      .caret ⟨p.line + 1, moveCoordinate ((c.normalize a.indentation).length + 1)
        ((c.innerLine a).length - (c.normalize a.indentation).length)⟩ := by
  have hinner := c.unbroken_innerLine ha
  have hnormal : Unbroken (c.normalize a.indentation) := c.style.unbroken_normalize ha.1
  have hend : p.traverse ('\n' :: c.innerLine a ++ '\n' :: c.normalize a.indentation) =
      ⟨p.line + 1 + 1, (c.normalize a.indentation).length + 1⟩ := by
    rw [traverse_append (hinner.noBareReturn_lineFeed.not_fuses _), traverse_lineFeed hinner,
      traverse_lineFeed hnormal]
  have hline : moveCoordinate (p.line + 1 + 1) (-1) = p.line + 1 :=
    moveCoordinate_add_neg (Nat.le_add_left 1 p.line) 1
  simp only [breakPlacement, h, Bool.false_eq_true, if_false]
  rw [breakText, c.outerLine_of_eq h, Placement.cursorAfter, TextEdit.insertedEnd, Range.point,
    hend, Position.offset]
  simp only [hline]

/-- The caret goes to the end of the first new line. Only between brackets is that found
from the end of the text put in. -/
theorem cursorAfter_breakPlacement {p : Position}
    (hroom : c.outerLine a ≠ [] → (c.innerLine a).length < maxCoordinate) :
    (c.breakPlacement a false).cursorAfter ⟨.point p, c.breakText a⟩ =
      .caret ⟨p.line + 1, (c.innerLine a).length + 1⟩ := by
  by_cases h : a.action = .indentOutdent
  · have hroom := hroom (by simp [c.outerLine_of_eq h])
    have hcolumn : moveCoordinate ((c.normalize a.indentation).length + 1)
        ((c.innerLine a).length - (c.normalize a.indentation).length) =
          (c.innerLine a).length + 1 :=
      moveCoordinate_eq (Nat.le_add_left 1 _) hroom (by push_cast; omega)
    rw [c.cursorAfter_breakPlacement_of_eq ha h, hcolumn]
  · exact c.cursorAfter_breakPlacement_of_ne ha h

end Config

/-! ## Breaking a line -/

/-- A line feed does not fuse with a line it is not at the start of. -/
theorem IsLines.not_fuses_of_ne_nil {lead : Text} (h : Unbroken lead) (hne : lead ≠ [])
    (above : List Line) (t : Text) :
    ¬Fuses ((above ++ [Line.mk lead []]).flatMap Line.toText) t := by
  have htext : (above ++ [Line.mk lead []]).flatMap Line.toText =
      above.flatMap Line.toText ++ lead := by
    simp [Line.toText]
  rw [htext, fuses_append_left hne]
  exact h.not_fuses t

namespace Buffer

/-- Behind a break, the end of the first new line is between that and the rest of the break. -/
theorem Between.newLine_end {b : Buffer} {p : Position} {before after : Text} {c : Config}
    {a : EnterAnswer} (h : b.Between p before (c.breakText a ++ after))
    (hbefore : ∀ t, ¬Fuses before t) (ha : Unbroken a.indentation ∧ Unbroken a.append) :
    b.Between ⟨p.line + 1, (c.innerLine a).length + 1⟩ (before ++ '\n' :: c.innerLine a)
      (c.outerLine a ++ after) := by
  have hinner := c.unbroken_innerLine ha
  have hfirst : ¬Fuses (before ++ '\n' :: c.innerLine a) (c.outerLine a ++ after) := by
    rw [fuses_append_left (List.cons_ne_nil _ _)]
    exact hinner.noBareReturn_lineFeed.not_fuses _
  have htext : b.text = before ++ '\n' :: c.innerLine a ++ (c.outerLine a ++ after) := by
    rw [h.text, Config.breakText]
    simp only [List.append_assoc]
  rw [← traverse_lineFeed hinner p]
  exact h.insert htext (hbefore _) hfirst

variable {b : Buffer} {above mid below : List Line} {lead tail e t last : Text}

/-- A text that starts with a line feed ends the line where it is put in. -/
theorem exists_apply_break (h : b.lines = above ++ ⟨lead ++ tail, e⟩ :: below)
    (hf : ¬Fuses ((above ++ [Line.mk lead []]).flatMap Line.toText) t)
    (ht : Text.lines t = ⟨[], ['\n']⟩ :: (mid ++ [⟨last, []⟩])) (hb : NoBareReturn t)
    (place : Placement) :
    ∃ b' : Buffer,
      b'.lines = above ++ ⟨lead, ['\n']⟩ :: (mid ++ ⟨last ++ tail, e⟩ :: below) ∧
        b'.tokens = [] ∧ b'.brackets = b.brackets ∧
      b.apply (.replace ⟨.point ⟨above.length + 1, lead.length + 1⟩, t⟩ place) =
        .ok (b', place.cursorAfter ⟨.point ⟨above.length + 1, lead.length + 1⟩, t⟩) := by
  have hlines : IsLines (above ++ ⟨lead ++ tail, e⟩ :: below) := h ▸ b.isLines
  obtain ⟨hbefore, hafter, -⟩ := hlines.split
  have hne : t ≠ [] := by
    rintro rfl
    simp [Text.lines] at ht
  have hf' : ¬Fuses ((above ++ [Line.mk lead []]).flatMap Line.toText ++ t)
      ((⟨tail, e⟩ :: below).flatMap Line.toText) := by
    rw [fuses_append_left hne]
    exact hb.not_fuses _
  have happly := (between_of_lines h).cut.apply_replace t place
  refine ⟨{ b with text := _, tokens := [] }, ?_, rfl, rfl, happly⟩
  rw [Buffer.lines, lines_insert (lines_flatMap hbefore) ht (lines_flatMap hafter) hf hf',
    List.append_nil]

end Buffer

/-! ## Typing a line feed -/

/-- A line feed is a line break if the rules have an answer to one. -/
theorem Context.type_lineFeed {ctx : Context} {s : Selection} {a : EnterAnswer}
    (ha : ctx.rules.enter? ctx.view s.range.start.line s.range.start.column = some a) :
    ctx.type s ['\n'] = ctx.enter false s.range := by
  rw [type, interpret?, typeBreak?, if_pos rfl, toOption_enter false ha]
  rfl

/-- What a line feed typed at a caret leaves. -/
theorem Session.step_type_lineFeed {s : Session} {a : EnterAnswer} {above mid below : List Line}
    {lead tail e last : Text} (hcursor : s.cursor = .caret ⟨above.length + 1, lead.length + 1⟩)
    (hlines : s.buffer.lines = above ++ ⟨lead ++ tail, e⟩ :: below)
    (hanswer : s.rules.enter? s.buffer.view (above.length + 1) (lead.length + 1) = some a)
    (ha : Unbroken a.indentation ∧ Unbroken a.append)
    (hf : ¬Fuses ((above ++ [Line.mk lead []]).flatMap Line.toText) (s.config.breakText a))
    (ht : Text.lines (s.config.breakText a) = ⟨[], ['\n']⟩ :: (mid ++ [⟨last, []⟩]))
    (hroom : (s.config.innerLine a).length < maxCoordinate) :
    (s.step (.edit (.type ['\n']))).2.refused? = none ∧
      (s.step (.edit (.type ['\n']))).1.buffer.lines =
        above ++ ⟨lead, ['\n']⟩ :: (mid ++ ⟨last ++ tail, e⟩ :: below) ∧
      (s.step (.edit (.type ['\n']))).1.buffer.tokens = [] ∧
      (s.step (.edit (.type ['\n']))).1.buffer.brackets = s.buffer.brackets ∧
      (s.step (.edit (.type ['\n']))).1.cursor =
        .caret ⟨above.length + 2, (s.config.innerLine a).length + 1⟩ := by
  have hrange : s.cursor.range = .point ⟨above.length + 1, lead.length + 1⟩ := by
    rw [hcursor, Selection.range_caret]
  obtain ⟨b', hlines', htokens, hbrackets, happly⟩ := Buffer.exists_apply_break hlines hf ht
    (s.config.noBareReturn_breakText ha) (s.config.breakPlacement a false)
  have hanswer : s.context.rules.enter? s.context.view s.cursor.range.start.line
      s.cursor.range.start.column = some a := by
    rw [hrange]
    exact hanswer
  have hcommand : ((EditStep.type ['\n']).outcome s.context s.cursor).command? = some (.replace
      ⟨.point ⟨above.length + 1, lead.length + 1⟩, s.config.breakText a⟩
      (s.config.breakPlacement a false)) := by
    rw [EditStep.outcome, Context.type_lineFeed hanswer, Context.enter_of_some false hanswer,
      hrange]
    rfl
  have hstep : s.step (.edit (.type ['\n'])) = _ := run_of_ok hcommand happly
  rw [hstep]
  exact ⟨rfl, hlines', htokens, hbrackets, s.config.cursorAfter_breakPlacement ha fun _ => hroom⟩

end Keystroke
