import Keystroke.Proofs.Selection
import Keystroke.Proofs.ShiftedContents

/-!
# The selection after a shift

A shift carries each end of the selection along on its own (`Shift.trackPosition`). An end
stays on its line; past the indentation it keeps the text that follows it, and inside it
goes to the end of the new indentation (`Shift.Carries`). The earlier end of a selection
stays at the start of its line if it is there. No end passes the other, since of two on
one line the first stays in front or at most catches up (`Shift.trackPosition_le`).
-/

namespace Keystroke

open Text

/-- Past the indentation, the content of a line ends the way the line does. -/
theorem Text.drop_content {t : Text} {n : Nat} (h : t.leadingIndent.length ≤ n) :
    t.content.drop (n - t.leadingIndent.length) = t.drop n := by
  rw [← drop_length_leadingIndent, List.drop_drop, Nat.add_sub_cancel' h]

namespace Shift

/-! ## Columns carried along -/

/-- The column of a position carried through an edit of the start of its line. -/
def trackColumn (e : TextEdit) (a : Association) (column : Nat) : Nat :=
  if a = .before ∧ column = 1 then 1
  else if e.range.stop.column ≤ column then
    column - (e.range.stop.column - 1) + e.text.length
  else e.text.length + 1

section

variable {es : List TextEdit} {e : TextEdit} {a : Association} {p q : Position}

theorem trackPosition_eq_trackColumn (h : editOf? es p.line = some e) :
    trackPosition es a p = ⟨p.line, trackColumn e a p.column⟩ := by
  rw [trackPosition_of_some h, trackColumn]
  split
  · rfl
  · split <;> rfl

theorem line_trackPosition (es : List TextEdit) (a : Association) (p : Position) :
    (trackPosition es a p).line = p.line := by
  rcases h : editOf? es p.line with _ | e
  · rw [trackPosition_of_none h]
  · rw [trackPosition_eq_trackColumn h]

theorem trackColumn_le {column column' : Nat} (hpos : 1 ≤ column) (h : column ≤ column') :
    trackColumn e a column ≤ trackColumn e .after column' := by
  have hafter : trackColumn e .after column' =
      if e.range.stop.column ≤ column' then
        column' - (e.range.stop.column - 1) + e.text.length
      else e.text.length + 1 := if_neg (by simp)
  rw [hafter, trackColumn]
  split
  · split <;> omega
  · split <;> split <;> omega

/-- An end of a selection does not pass a later one. -/
theorem trackPosition_le (hp : 1 ≤ p.column) (h : p ≤ q) (a : Association) :
    trackPosition es a p ≤ trackPosition es .after q := by
  rw [Position.le_def] at h ⊢
  rw [line_trackPosition, line_trackPosition]
  rcases h with h | ⟨hline, hcolumn⟩
  · exact .inl h
  · refine .inr ⟨hline, ?_⟩
    rcases he : editOf? es p.line with _ | e
    · rwa [trackPosition_of_none he, trackPosition_of_none (by rwa [← hline])]
    · rw [trackPosition_eq_trackColumn he, trackPosition_eq_trackColumn (by rwa [← hline])]
      exact trackColumn_le hp hcolumn

end

/-! ## Both ends -/

theorem eq_after {a : Association} (h : a ≠ .before) : a = .after := by
  cases a with
  | before => exact absurd rfl h
  | after => rfl

/-- The end that comes first stays in front of what is put in at it. -/
theorem trackSelection_eq (es : List TextEdit) (s : Selection) :
    ∃ a a', trackSelection es s = ⟨trackPosition es a s.anchor, trackPosition es a' s.head⟩ ∧
      (a = .before ↔ s.anchor < s.head) ∧ (a' = .before ↔ s.head < s.anchor) := by
  rw [Selection.anchor_lt_head_iff, Selection.head_lt_anchor_iff]
  refine ⟨_, _, rfl, ?_, ?_⟩
  · simp
  · simp

/-! ## The text at a carried position -/

/-- How a shift carries a position to another one. On a line without an edit it stays. On a
line with one it keeps the text that follows it, or goes from inside the indentation to the
end of the new one; only the first end of a selection stays at the start of the line. -/
structure Carries (b b' : Buffer) (edited first : Prop) (p p' : Position) : Prop where
  valid : b'.Valid p'
  line : p'.line = p.line
  unedited : ¬edited → p' = p
  start : edited → first → p.column = 1 → p'.column = 1
  content : edited → ¬(first ∧ p.column = 1) →
    (b.lineContent p.line).leadingIndent.length < p.column → b'.textAfter p' = b.textAfter p
  indent : edited → ¬(first ∧ p.column = 1) →
    p.column ≤ (b.lineContent p.line).leadingIndent.length →
      p'.column = (b'.lineContent p.line).leadingIndent.length + 1

theorem editOf?_eq_none_iff {es : List TextEdit} {line : Nat} :
    editOf? es line = none ↔ ¬∃ e ∈ es, e.range.start.line = line := by
  rw [editOf?, List.find?_eq_none]
  simp

section

variable {b b' : Buffer} {s : Selection} {c : Config} {d : ShiftDirection} {e : TextEdit}
  (hs : b.Covers s.range)
  (hb' : b'.lines = editedLines (ofSelection b.view s (c.shiftOptions d)).edits b.lines)

include hs hb'

/-- An edited line has new indentation in front of its content. -/
theorem lineContent_of_editOf? {line : Nat}
    (h : editOf? (ofSelection b.view s (c.shiftOptions d)).edits line = some e) :
    e.range.stop.column = (b.lineContent line).leadingIndent.length + 1 ∧ AllIndent e.text ∧
      b'.lineContent line = e.text ++ (b.lineContent line).content := by
  obtain ⟨he, hline⟩ := mem_of_editOf? h
  obtain ⟨k, hk, hstart, hstop, htext⟩ := Buffer.exists_of_mem_edits hs he
  obtain rfl : k + 1 = line := by rw [← hline, hstart]
  have hk' : k < b'.lines.length := by simpa [hb'] using hk
  rw [Buffer.lineContent_succ hk, Buffer.lineContent_succ hk', hstop]
  refine ⟨rfl, htext ▸ allIndent_newIndent c d _, ?_⟩
  simp only [hb', getElem_editedLines hk, h, Line.edited, hstop, Nat.add_sub_cancel,
    drop_length_leadingIndent]

/-- A position inside the buffer is carried along. -/
theorem carries_trackPosition (a : Association) {p : Position} (hp : b.Valid p) :
    Carries b b'
      (∃ e ∈ (ofSelection b.view s (c.shiftOptions d)).edits, e.range.start.line = p.line)
      (a = .before) p (trackPosition (ofSelection b.view s (c.shiftOptions d)).edits a p) := by
  have hvalid := Buffer.valid_trackPosition hb' hs a hp
  have hline := line_trackPosition (ofSelection b.view s (c.shiftOptions d)).edits a p
  rcases hof : editOf? (ofSelection b.view s (c.shiftOptions d)).edits p.line with _ | e
  · have hun := editOf?_eq_none_iff.mp hof
    exact ⟨hvalid, hline, fun _ => trackPosition_of_none hof, fun h => absurd h hun,
      fun h => absurd h hun, fun h => absurd h hun⟩
  · obtain ⟨hstop, hindent, hcontent⟩ := lineContent_of_editOf? hs hb' hof
    have hed := mem_of_editOf? hof
    have hcolumn : p.column ≤ (b.lineContent p.line).length + 1 := hp.2.2.2
    rw [trackPosition_eq_trackColumn hof] at hvalid hline ⊢
    refine ⟨hvalid, hline, fun h => absurd ⟨e, hed⟩ h, fun _ hfirst hone => ?_,
      fun _ hfirst hpast => ?_, fun _ hfirst hinside => ?_⟩
    · exact if_pos ⟨hfirst, hone⟩
    · have hcol : trackColumn e a p.column - 1 =
          e.text.length + (p.column - 1 - (b.lineContent p.line).leadingIndent.length) := by
        rw [trackColumn, if_neg hfirst, hstop, if_pos (Nat.succ_le_of_lt hpast)]
        omega
      rw [Buffer.textAfter, Buffer.textAfter, hcontent, hcol, List.drop_length_add_append,
        drop_content (Nat.le_sub_one_of_lt hpast)]
    · rw [hcontent, hindent.leadingIndent_append, leadingIndent_content, List.append_nil,
        trackColumn, if_neg hfirst, hstop, if_neg (by omega)]

end

/-- Only a caret on a blank line is not carried along. -/
theorem cursorAfter_eq_trackSelection {v : View} {s : Selection} {o : ShiftOptions}
    (h : s.isEmpty = false ∨ (v.lineContent s.head.line).isBlankLine = false) :
    (ofSelection v s o).cursorAfter = trackSelection (ofSelection v s o).edits s := by
  refine cursorAfter_ofSelection.resolve_left fun ⟨⟨hempty, hblank⟩, _⟩ => ?_
  rw [Selection.range_of_isEmpty hempty] at hblank
  rcases h with h | h
  · exact Bool.noConfusion (h.symm.trans hempty)
  · exact Bool.noConfusion (h.symm.trans hblank)

end Shift

namespace Context

variable {ctx : Context} {b : Buffer} {s : Selection}

/-- A shift of a selection, or of a caret on a line that is not blank, applies and carries
both ends along. Their order is not reversed. -/
theorem shift_carries_selection (hv : ctx.view = b.view) (hs : b.Safe s)
    (hsel : s.isEmpty = false ∨ (b.lineContent s.head.line).isBlankLine = false)
    (d : ShiftDirection) :
    ∃ shift b' s', (ctx.shift d s).command? = some (.shift shift) ∧
      b.apply (.shift shift) = .ok (b', s') ∧
        (s.anchor ≤ s.head → s'.anchor ≤ s'.head) ∧
          (s.head ≤ s.anchor → s'.head ≤ s'.anchor) ∧
            Shift.Carries b b' (∃ e ∈ shift.edits, e.range.start.line = s.anchor.line)
              (s.anchor < s.head) s.anchor s'.anchor ∧
              Shift.Carries b b' (∃ e ∈ shift.edits, e.range.start.line = s.head.line)
                (s.head < s.anchor) s.head s'.head := by
  obtain ⟨b', hlines, happly, -⟩ := Buffer.exists_apply_editedLines
    (o := ctx.config.shiftOptions d) hs ctx.config.style.unbroken_oneIndent
  rw [Shift.cursorAfter_eq_trackSelection hsel] at happly
  obtain ⟨a, a', htrack, ha, ha'⟩ := Shift.trackSelection_eq
    (Shift.ofSelection b.view s (ctx.config.shiftOptions d)).edits s
  rw [htrack] at happly
  have hanchor := Shift.carries_trackPosition hs.covers hlines a hs.anchor
  have hhead := Shift.carries_trackPosition hs.covers hlines a' hs.head
  rw [ha] at hanchor
  rw [ha'] at hhead
  refine ⟨_, b', _, by rw [ctx.command?_shift d s, hv], happly, fun hle => ?_, fun hle => ?_,
    hanchor, hhead⟩
  · have hafter : a' = .after := Shift.eq_after fun h =>
      Position.not_le.mpr (ha'.mp h) hle
    rw [hafter]
    exact Shift.trackPosition_le hs.anchor.2.2.1 hle a
  · have hafter : a = .after := Shift.eq_after fun h => Position.not_le.mpr (ha.mp h) hle
    rw [hafter]
    exact Shift.trackPosition_le hs.head.2.2.1 hle a'

/-- From the content of a line back into the indentation of the one in front, where spaces
come before a tab. -/
theorem shift_carries_selection_backward :
    let b := Buffer.ofText [' ', ' ', '\t', 'x', '\r', '\n', '\t', 'y', '\n']
    let s : Selection := ⟨⟨2, 2⟩, ⟨1, 2⟩⟩
    let ctx : Context := ⟨.standard, b.view, BracketRules.standard.toRules⟩
    ∃ shift b' s', (ctx.shift .indent s).command? = some (.shift shift) ∧
      b.apply (.shift shift) = .ok (b', s') ∧
        (s.anchor ≤ s.head → s'.anchor ≤ s'.head) ∧
          (s.head ≤ s.anchor → s'.head ≤ s'.anchor) ∧
            Shift.Carries b b' (∃ e ∈ shift.edits, e.range.start.line = s.anchor.line)
              (s.anchor < s.head) s.anchor s'.anchor ∧
              Shift.Carries b b' (∃ e ∈ shift.edits, e.range.start.line = s.head.line)
                (s.head < s.anchor) s.head s'.head := by
  intro b s ctx
  have hs : b.Safe s := ⟨by decide, by decide, by decide⟩
  exact shift_carries_selection rfl hs (.inl (by decide)) .indent

end Context

end Keystroke
