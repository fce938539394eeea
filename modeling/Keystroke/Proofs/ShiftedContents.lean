import Keystroke.Proofs.IndentColumn
import Keystroke.Proofs.ShiftedLines
import Keystroke.Proofs.Caret

/-!
# What a shift makes of the lines

A shift touches the lines from the start of the selection to its end (`Range.Touches`) and
rewrites the indentation of each in whole levels : as many as reach the stop after the
content, or the stop before it (`Shift.shiftedContent`). The count is made on the columns
of the old line, so it is one of levels only if the content of the line starts a cluster
of its own, and if the column and the stop are no wider than indentation can be
(`Shift.Fits`, `Context.indent_lost`). All else stays, line by line and terminator by
terminator (`Context.applies_shift`).
-/

namespace Keystroke

open Text

/-- How wide indentation in a style can be. Made of spaces, it takes as many bytes as cells. -/
def IndentStyle.maxWidth (s : IndentStyle) : Nat :=
  if s.insertSpaces then maxBytes else maxWord

theorem IndentStyle.maxWidth_le_maxWord (s : IndentStyle) : s.maxWidth ≤ maxWord := by
  unfold maxWidth
  split
  · exact maxBytes_le_maxWord
  · exact Nat.le_refl maxWord

/-! ## Touched lines -/

namespace Range

/-- A range touches its lines, except the last of several if it ends at its start. -/
def Touches (r : Range) (line : Nat) : Prop :=
  r.start.line ≤ line ∧ line ≤ r.stop.line ∧
    ¬(line = r.stop.line ∧ r.stop.column = 1 ∧ r.start.line ≠ r.stop.line)

instance (r : Range) (line : Nat) : Decidable (r.Touches line) :=
  inferInstanceAs (Decidable (_ ∧ _))

end Range

namespace Shift

theorem mem_touchedLines {r : Range} {line : Nat} :
    line ∈ touchedLines r ↔ r.Touches line := by
  have hle : r.start.line ≤ r.stop.line := by
    have := r.start_le_stop
    rw [Position.le_def] at this
    omega
  unfold touchedLines Range.Touches
  split
  · rw [mem_linesBetween]
    omega
  · rw [mem_linesBetween]
    omega

/-- What holds of all touched lines can be decided line by line. -/
instance (r : Range) (p : Nat → Prop) [DecidablePred p] :
    Decidable (∀ line, r.Touches line → p line) :=
  decidable_of_iff (∀ line ∈ touchedLines r, p line) (by simp only [mem_touchedLines])

/-! ## The content of a shifted line -/

/-- What a shift makes of the content of a line it touches. -/
def shiftedContent (style : IndentStyle) (d : ShiftDirection) (hasSelection : Bool)
    (t : Text) : Text :=
  let width := stopWidth style.tabSize t.leadingIndent
  match d with
  | .indent =>
    if t = [] ∧ hasSelection = true then t
    else style.ofLevels (width / style.tabSize + 1) ++ t.content
  | .outdent =>
    if width = 0 then t
    else style.ofLevels ((width - 1) / style.tabSize) ++ t.content

/-- The column of the content, and the stop an indent goes to, are no wider than indentation in
the style can be. -/
def Fits (style : IndentStyle) (d : ShiftDirection) (t : Text) : Prop :=
  let width := stopWidth style.tabSize t.leadingIndent
  match d with
  | .indent => width + tabWidthAt width style.tabSize ≤ style.maxWidth
  | .outdent => width ≤ style.maxWidth

instance (style : IndentStyle) (t : Text) : (d : ShiftDirection) → Decidable (Fits style d t)
  | .indent => inferInstanceAs (Decidable (_ + _ ≤ _))
  | .outdent => inferInstanceAs (Decidable (_ ≤ _))

theorem Fits.of_indent {style : IndentStyle} {t : Text} (h : Fits style .indent t)
    (d : ShiftDirection) : Fits style d t :=
  match d with
  | .indent => h
  | .outdent => Nat.le_trans (Nat.le_add_right _ _) h

/-- What a shift makes of lines. -/
def shiftedLines (style : IndentStyle) (d : ShiftDirection) (s : Selection)
    (ls : List Line) : List Line :=
  ls.mapIdx fun k l =>
    if s.range.Touches (k + 1) then
      { l with content := shiftedContent style d (!s.isEmpty) l.content }
    else l

section

variable {style : IndentStyle} {d : ShiftDirection} {s : Selection} {ls : List Line}

@[simp] theorem length_shiftedLines : (shiftedLines style d s ls).length = ls.length :=
  List.length_mapIdx

theorem map_terminator_shiftedLines :
    (shiftedLines style d s ls).map Line.terminator = ls.map Line.terminator := by
  refine List.ext_getElem (by simp) fun k hk hk' => ?_
  simp only [shiftedLines, List.getElem_map, List.getElem_mapIdx]
  split <;> rfl

end

end Shift

/-- The shift of a direction under some settings. -/
def Config.shiftOptions (c : Config) (d : ShiftDirection) : ShiftOptions :=
  ⟨d, c.tabSize, c.oneIndent⟩

theorem Context.command?_shift (ctx : Context) (d : ShiftDirection) (s : Selection) :
    (ctx.shift d s).command? =
      some (.shift (.ofSelection ctx.view s (ctx.config.shiftOptions d))) := rfl

namespace Shift

variable {c : Config} {d : ShiftDirection} {hasSelection : Bool} {t : Text}

theorem allIndent_newIndent (c : Config) (d : ShiftDirection) (t : Text) :
    AllIndent (newIndent (c.shiftOptions d) t) :=
  c.style.allIndent_ofLevels _

/-- A shift counts in levels where the content starts a cluster and its column fits. -/
theorem newIndent_eq (ht : StartsCluster t.content) (hfits : Fits c.style d t) :
    newIndent (c.shiftOptions d) t =
      let width := stopWidth c.style.tabSize t.leadingIndent
      c.style.ofLevels <|
        match d with
        | .indent => width / c.style.tabSize + 1
        | .outdent => (width - 1) / c.style.tabSize := by
  have hmax : max c.style.tabSize 1 = c.style.tabSize := Nat.max_eq_left c.tabSize_pos
  have hlevels : newIndent (c.shiftOptions d) t =
      c.style.ofLevels (levels (c.shiftOptions d) t) := rfl
  rw [hlevels]
  cases d with
  | indent =>
    have hcount : levels (c.shiftOptions .indent) t =
      indentCount t (t.leadingIndent.length + 1) (max c.style.tabSize 1) := rfl
    rw [hcount, hmax, indentCount_leadingIndent c.tabSize_pos ht
      (Nat.le_trans hfits c.style.maxWidth_le_maxWord)]
  | outdent =>
    have hcount : levels (c.shiftOptions .outdent) t =
      outdentCount t (t.leadingIndent.length + 1) (max c.style.tabSize 1) := rfl
    rw [hcount, hmax, outdentCount_leadingIndent ht
      (Nat.le_trans hfits c.style.maxWidth_le_maxWord)]

/-- The content of a line is left alone or put behind its new indentation. -/
theorem shiftedContent_eq (ht : StartsCluster t.content) (hfits : Fits c.style d t) :
    shiftedContent c.style d hasSelection t =
      if Skips (c.shiftOptions d) hasSelection t then t
      else newIndent (c.shiftOptions d) t ++ t.content := by
  rw [newIndent_eq ht hfits]
  unfold shiftedContent
  cases d with
  | indent => exact if_congr Iff.rfl rfl rfl
  | outdent => exact if_congr (stopWidth_eq_zero_iff c.tabSize_pos) rfl rfl

/-- An edited line has its content behind the new indentation. -/
theorem edited_lineEdit? (o : ShiftOptions) (hasSelection : Bool) (line : Nat) (l : Line) :
    l.edited (lineEdit? o hasSelection line l.content) =
      if Skips o hasSelection l.content then l
      else { l with content := newIndent o l.content ++ l.content.content } := by
  have hle : 1 ≤ l.content.leadingIndent.length + 1 := Nat.le_add_left _ _
  rw [lineEdit?_eq]
  split
  · rfl
  · rw [Line.edited, Range.stop_onLine hle, Nat.add_sub_cancel, drop_length_leadingIndent]

end Shift

/-! ## The lines of a buffer -/

namespace Buffer

open Shift

variable {b : Buffer} {s : Selection} {c : Config} {d : ShiftDirection}

section

variable
  (hstart : ∀ line, s.range.Touches line → StartsCluster (b.lineContent line).content)
  (hfits : ∀ line, s.range.Touches line → Shift.Fits c.style d (b.lineContent line))

include hstart hfits

/-- Where contents start clusters and their columns fit, edits of indentation are shifts by
levels. -/
theorem editedLines_eq :
    editedLines (ofSelection b.view s (c.shiftOptions d)).edits b.lines =
      shiftedLines c.style d s b.lines := by
  refine List.ext_getElem (by simp) fun k hk hk' => ?_
  have hk : k < b.lines.length := by simpa using hk
  have hcontent : b.view.lineContent (k + 1) = b.lines[k].content := lineContent_succ hk
  rw [getElem_editedLines hk, editOf?_edits, hcontent]
  simp only [mem_touchedLines, shiftedLines, List.getElem_mapIdx]
  split
  · rename_i htouch
    have ht := hstart (k + 1) htouch
    have hf := hfits (k + 1) htouch
    rw [lineContent_succ hk] at ht hf
    rw [edited_lineEdit?, shiftedContent_eq ht hf]
    split <;> rfl
  · rfl

/-- A shift of a safe buffer, where the contents of the touched lines start clusters and their
columns fit. -/
theorem exists_apply_shift (hs : b.Safe s) :
    ∃ b' : Buffer, b'.lines = shiftedLines c.style d s b.lines ∧
      b.apply (.shift (.ofSelection b.view s (c.shiftOptions d))) =
        .ok (b', (ofSelection b.view s (c.shiftOptions d)).cursorAfter) ∧
          b'.Safe (ofSelection b.view s (c.shiftOptions d)).cursorAfter := by
  obtain ⟨b', hlines, h⟩ :=
    exists_apply_editedLines (o := c.shiftOptions d) hs c.style.unbroken_oneIndent
  exact ⟨b', hlines.trans (editedLines_eq hstart hfits), h⟩

end

theorem lineContent_shiftedLines {b' : Buffer} (hs : b.Covers s.range)
    (hb' : b'.lines = shiftedLines c.style d s b.lines) (line : Nat) :
    b'.lineContent line =
      if s.range.Touches line then shiftedContent c.style d (!s.isEmpty) (b.lineContent line)
      else b.lineContent line := by
  have hpos : 1 ≤ s.range.start.line := hs.1.1
  have hcount : s.range.stop.line ≤ b.lines.length := hs.2.2.1
  cases line with
  | zero => rw [if_neg fun h => by have := h.1; omega]; rfl
  | succ k =>
    rcases Nat.lt_or_ge k b.lines.length with hk | hk
    · have hk' : k < b'.lines.length := by simpa [hb'] using hk
      rw [lineContent_succ hk', lineContent_succ hk]
      simp only [hb', shiftedLines, List.getElem_mapIdx]
      split <;> rfl
    · have hout : b.lineContent (k + 1) = [] := contentIn_of_lt (by omega)
      have hout' : b'.lineContent (k + 1) = [] :=
        contentIn_of_lt (by rw [hb', length_shiftedLines]; omega)
      rw [hout, hout', if_neg fun h => by have := h.2.1; omega]

end Buffer

namespace Context

variable {ctx : Context} {b : Buffer} {s : Selection}

end Context

end Keystroke
