import Keystroke.Proofs.JoinedSelection

/-!
# Joining at the last line

There is no line to join to the last one. A join there is no operation if the last line is empty
(`Context.joinLines_last_of_nil`), and replaces the line by itself if it is not : the text stays,
but the tokens are dropped, undo stops on both sides, and a caret goes to the end of the line
(`Session.joinLines_lastLine`).
-/

namespace Keystroke

open Text Position

namespace Buffer

/-- The last line of a buffer, with the lines above it. -/
theorem exists_lines_last (b : Buffer) :
    ∃ above last, b.lines = above ++ [last] ∧ b.lineCount = above.length + 1 ∧
      b.lineContent b.lineCount = last.content := by
  obtain ⟨above, last, hlines⟩ := exists_lines_eq_concat b.text
  have hcount : b.lineCount = above.length + 1 := lineCount_of_lines hlines
  refine ⟨above, ⟨last, []⟩, hlines, hcount, ?_⟩
  rw [hcount]
  exact lineContent_of_lines hlines

end Buffer

namespace Context

variable {ctx : Context} {b : Buffer} {s : Selection} {above : List Line} {last : Line}
  (hv : ctx.view = b.view) (hsingle : s.isSingleLine = true)
  (hline : s.range.start.line = above.length + 1) (hlines : b.lines = above ++ [last])

include hv hsingle hline hlines

theorem joinLines_last_of_nil (hnil : last.content = []) : ctx.joinLines s = .noop := by
  have hrange : s.range.isSingleLine = true := by rwa [Selection.isSingleLine_range]
  have hempty : (ctx.joinRange s.range).isEmpty = true := by
    rw [(joinRange_last hv hrange hline hlines).1, Range.isEmpty, Range.start_ofLines,
      Range.stop_ofLines, hnil, beq_iff_eq]
    rfl
  rw [joinLines, if_pos hempty]

/-- A caret goes to the end of the last line, a selection in it stays. -/
theorem cursorAfter_joinPlacement_last :
    (ctx.joinPlacement s).cursorAfter ⟨.ofLines above [] last, last.content⟩ =
      if s.isEmpty then .caret ⟨above.length + 1, last.content.length + 1⟩ else s := by
  have hrange : s.range.isSingleLine = true := by rwa [Selection.isSingleLine_range]
  have hunbroken : Unbroken last.content := by
    rw [← Buffer.lineContent_of_lines hlines]
    exact Buffer.unbroken_lineContent _
  rw [joinPlacement, (joinRange_last hv hrange hline hlines).2, hsingle]
  split
  · have hback := Placement.cursorAfter_ofLines_back hunbroken unbroken_nil above [] last
    rwa [List.append_nil] at hback
  · rfl

omit hv hsingle hline hlines in
/-- Undo stops in front of a join and behind it. -/
theorem stopsOf_joinLines {c : Command} (hc : (ctx.joinLines s).command? = some c) :
    Session.stopsOf (ctx.joinLines s) = 2 := by
  rw [joinLines] at hc ⊢
  by_cases hempty : (ctx.joinRange s.range).isEmpty = true
  · rw [if_pos hempty] at hc
    cases hc
  · rw [if_neg hempty]
    rfl

end Context

namespace Session

variable {s : Session}

/-- A join with both ends of the cursor on the last line leaves the text as it is. With an empty
last line it changes nothing. Otherwise it adds two undo stops, and a caret goes to the end of
the line. -/
theorem joinLines_lastLine (hanchor : s.cursor.anchor.line = s.buffer.lineCount)
    (hhead : s.cursor.head.line = s.buffer.lineCount) :
    let last := s.buffer.lineContent s.buffer.lineCount
    let done := s.step (.edit .joinLines)
    done.2.refused? = none ∧ done.1.buffer.text = s.buffer.text ∧
      (last = [] → done.1 = s) ∧
      (last ≠ [] → done.1.undoStops = s.undoStops + 2 ∧
        done.1.cursor = if s.cursor.isEmpty then .caret ⟨s.buffer.lineCount, last.length + 1⟩
          else s.cursor) := by
  intro line done
  obtain ⟨above, last, hlines, hcount, hcontent⟩ := s.buffer.exists_lines_last
  have hv : s.context.view = s.buffer.view := rfl
  have hsingle : s.cursor.isSingleLine = true := beq_iff_eq.mpr (hanchor.trans hhead.symm)
  have hrange : s.cursor.range.isSingleLine = true := by rwa [Selection.isSingleLine_range]
  have hline : s.cursor.range.start.line = above.length + 1 := by
    rw [Selection.start_line_of_isSingleLine hsingle, hhead, hcount]
  by_cases hnil : last.content = []
  · have hdone : done = s.run .noop :=
      congrArg s.run (Context.joinLines_last_of_nil hv hsingle hline hlines hnil)
    rw [hdone]
    exact ⟨rfl, rfl, fun _ => rfl, fun hne => absurd (hcontent.trans hnil) hne⟩
  · obtain ⟨c, hc, happly⟩ := Context.applies_joinLines_last hv hrange hline hlines hnil
    have hdone : done = _ := run_of_ok hc happly
    have hcursor := Context.cursorAfter_joinPlacement_last hv hsingle hline hlines
    rw [hdone]
    refine ⟨rfl, rfl, fun h => absurd (hcontent.symm.trans h) hnil, fun _ => ⟨?_, ?_⟩⟩
    · exact congrArg (s.undoStops + ·) (Context.stopsOf_joinLines hc)
    · rw [hcursor, hcount, ← hcontent]

/-- Backward over the last two characters below a lone carriage return. -/
theorem joinLines_lastLine_backward :
    let s : Session := ⟨.standard, BracketRules.standard.toRules, .ofText ['a', '\r', ' ', 'b', ' '],
      ⟨⟨2, 4⟩, ⟨2, 2⟩⟩, 3⟩
    let done := s.step (.edit .joinLines)
    done.2.refused? = none ∧ done.1.buffer.text = s.buffer.text ∧ done.1.undoStops = 5 ∧
      done.1.cursor = s.cursor := by
  intro s
  have hanchor : s.cursor.anchor.line = s.buffer.lineCount := by decide
  have hhead : s.cursor.head.line = s.buffer.lineCount := by decide
  obtain ⟨hrefused, htext, -, hdone⟩ := joinLines_lastLine hanchor hhead
  obtain ⟨hstops, hcursor⟩ := hdone (by decide)
  exact ⟨hrefused, htext, hstops, hcursor⟩

/-- In the middle of the only line, a join moves the caret and adds undo stops. -/
theorem joinLines_moves_caret :
    let s : Session := ⟨.standard, BracketRules.standard.toRules, .ofText ['f', 'o', 'o'],
      .caret ⟨1, 2⟩, 0⟩
    let done := (s.step (.edit .joinLines)).1
    s.buffer.Valid s.cursor.head ∧ s.cursor.head.line = s.buffer.lineCount ∧
      done.buffer.text = s.buffer.text ∧ done.cursor = .caret ⟨1, 4⟩ ∧ done.undoStops = 2 := by
  decide

end Session

end Keystroke
