import Keystroke.Proofs.Checked
import Keystroke.Proofs.Indentation
import Keystroke.Proofs.Shift

/-!
# Lines without a fault

Visible columns, indentation and the shift of a selection, computed with steps that may fault : a
remainder and a quotient by the tab size, what is left up to a tab stop, a line split behind its
indentation, the line above the last one of a range, the way of a position from the end of its
line's indentation. A positive tab size is enough for a line (`Checked.normalize_eq`,
`Checked.outdentCount_eq`). A shift makes its tab size positive, and its edits end in a column
counted from one (`Checked.shiftOfSelection_eq`).
-/

namespace Keystroke.Checked

/-! ## Tab stops and visible columns -/

section

variable {tabSize : Nat}

/-- What is left up to a stop, by a remainder and a difference. -/
def tabWidthAt (x tabSize : Nat) : Checked Nat := do
  sub tabSize (← mod x tabSize)

def nextTabStop (x tabSize : Nat) : Checked Nat := do
  return addWord x (← tabWidthAt x tabSize)

/-- In front of the first stop there is nothing to take away. -/
def prevTabStop (x tabSize : Nat) : Checked Nat :=
  if x = 0 then pure 0 else do sub (← sub x 1) (← mod (← sub x 1) tabSize)

def cellAfter (tabSize x : Nat) (g : Text) : Checked Nat :=
  if g = ['\t'] then nextTabStop x tabSize else pure (addWord x (cellWidth g))

/-- The cell after the clusters that hold the first `limit` characters. So many characters are
behind already, and they end in cell `x`. -/
def cellAfterChars (tabSize limit : Nat) : List Text → (behind x : Nat) → Checked Nat
  | [], _, x => pure x
  | g :: gs, behind, x =>
    if limit ≤ behind then pure x
    else do cellAfterChars tabSize limit gs (behind + g.length) (← cellAfter tabSize x g)

/-- The column is counted from one, and that of zero is taken to be the first. -/
def visibleColumn (line : Text) (column tabSize : Nat) : Checked Nat :=
  cellAfterChars tabSize (column - 1) (clusters line) 0 0

/-- A remainder is smaller than what it is taken by. -/
theorem tabWidthAt_eq (h : 0 < tabSize) (x : Nat) :
    tabWidthAt x tabSize = pure (Keystroke.tabWidthAt x tabSize) := by
  rw [tabWidthAt, mod_eq h, pure_bind, sub_eq (Nat.le_of_lt (Nat.mod_lt x h)), Keystroke.tabWidthAt]

theorem nextTabStop_eq (h : 0 < tabSize) (x : Nat) :
    nextTabStop x tabSize = pure (Keystroke.nextTabStop x tabSize) := by
  rw [nextTabStop, tabWidthAt_eq h, pure_bind, Keystroke.nextTabStop]

/-- It is no larger than what it is taken of. -/
theorem prevTabStop_eq (h : 0 < tabSize) (x : Nat) :
    prevTabStop x tabSize = pure (Keystroke.prevTabStop x tabSize) := by
  cases x with
  | zero => rfl
  | succ x =>
    have hone : sub (x + 1) 1 = pure x := sub_eq (Nat.le_add_left 1 x)
    rw [prevTabStop, if_neg (Nat.succ_ne_zero x), hone, pure_bind, pure_bind, mod_eq h, pure_bind,
      sub_eq (Nat.mod_le x tabSize), Keystroke.prevTabStop]

theorem cellAfter_eq (h : 0 < tabSize) (x : Nat) (g : Text) :
    cellAfter tabSize x g = pure (Keystroke.cellAfter tabSize x g) := by
  rw [cellAfter, Keystroke.cellAfter, nextTabStop_eq h]
  split <;> rfl

/-- Counting up to a limit ends at the same cluster as counting down from it. -/
theorem cellAfterChars_eq (h : 0 < tabSize) (limit : Nat) (gs : List Text) (behind x : Nat) :
    cellAfterChars tabSize limit gs behind x
      = pure (Keystroke.cellAfterChars tabSize gs (limit - behind) x) := by
  induction gs generalizing behind x with
  | nil => rfl
  | cons g gs ih =>
    rw [cellAfterChars, Keystroke.cellAfterChars]
    by_cases hlimit : limit ≤ behind
    · rw [if_pos hlimit, if_pos (Nat.sub_eq_zero_of_le hlimit)]
    · rw [if_neg hlimit, if_neg (Nat.sub_ne_zero_of_lt (Nat.lt_of_not_le hlimit)), cellAfter_eq h,
        pure_bind, ih, Nat.sub_add_eq]

theorem visibleColumn_eq (h : 0 < tabSize) (line : Text) (column : Nat) :
    visibleColumn line column tabSize = pure (Keystroke.visibleColumn line column tabSize) :=
  cellAfterChars_eq h (column - 1) (clusters line) 0 0

end

/-! ## Indentation -/

section

variable {tabSize : Nat} {s : IndentStyle}

/-- The text with its leading spaces and tabs put in a style. It is split at the first byte of its
content. -/
def normalize (s : IndentStyle) (t : Text) : Checked Text := do
  let stop := t.byteOffset (t.firstContent?.getD t.length)
  let width := indentWidth s.tabSize (← takeBytes t stop)
  let rest ← dropBytes t stop
  if s.insertSpaces then return List.replicate width ' ' ++ rest
  else return List.replicate (← div width s.tabSize) '\t'
    ++ List.replicate (← mod width s.tabSize) ' ' ++ rest

/-- Levels at the stop after a column, by a quotient. -/
def indentCount (line : Text) (column tabSize : Nat) : Checked Nat := do
  div (← nextTabStop (← visibleColumn line column tabSize) tabSize) tabSize

/-- Levels at the stop before it. -/
def outdentCount (line : Text) (column tabSize : Nat) : Checked Nat := do
  div (← prevTabStop (← visibleColumn line column tabSize) tabSize) tabSize

/-- The content starts at a byte that is not inside a character. -/
theorem byteOffset_content (t : Text) :
    t.byteOffset (t.firstContent?.getD t.length) = Text.byteLength t.leadingIndent := by
  have htake : t.take t.leadingIndent.length = t.leadingIndent :=
    (congrArg (List.take _) (Text.leadingIndent_append_content t)).symm.trans List.take_left
  rw [Text.getD_firstContent?, Text.byteOffset, htake]

/-- The text is split in front of a character. -/
theorem normalize_eq (h : 0 < s.tabSize) (t : Text) : normalize s t = pure (s.normalize t) := by
  have htake := takeBytes_append t.leadingIndent t.content
  have hdrop := dropBytes_append t.leadingIndent t.content
  rw [Text.leadingIndent_append_content] at htake hdrop
  simp only [normalize, byteOffset_content, htake, hdrop, pure_bind, div_eq h, mod_eq h,
    IndentStyle.normalize, IndentStyle.ofWidth]
  split <;> rfl

theorem indentCount_eq (h : 0 < tabSize) (line : Text) (column : Nat) :
    indentCount line column tabSize = pure (Keystroke.indentCount line column tabSize) := by
  rw [indentCount, visibleColumn_eq h, pure_bind, nextTabStop_eq h, pure_bind, div_eq h,
    Keystroke.indentCount]

theorem outdentCount_eq (h : 0 < tabSize) (line : Text) (column : Nat) :
    outdentCount line column tabSize = pure (Keystroke.outdentCount line column tabSize) := by
  rw [outdentCount, visibleColumn_eq h, pure_bind, prevTabStop_eq h, pure_bind, div_eq h,
    Keystroke.outdentCount]

end

/-! ## Shifts -/

/-- A range that ends at the start of a line goes to the line above it. -/
def touchedLines (r : Range) : Checked (List Nat) :=
  if r.stop.column = 1 ∧ r.start.line ≠ r.stop.line then do
    return linesBetween r.start.line (← sub r.stop.line 1)
  else pure (linesBetween r.start.line r.stop.line)

/-- A shift of one line, whose levels are counted by its tab size or by one. -/
def lineEdit (o : ShiftOptions) (hasSelection : Bool) (line : Nat) (text : Text) :
    Checked (Option TextEdit) :=
  let indent := text.firstContent?.getD text.length
  let tabSize := max o.tabSize 1
  let replaceBy (levels : Nat) : TextEdit :=
    ⟨.onLine line 1 (indent + 1), (List.replicate levels o.oneIndent).flatten⟩
  match o.direction with
  | .outdent =>
    if indent = 0 then pure none
    else do return some (replaceBy (← outdentCount text (indent + 1) tabSize))
  | .indent =>
    if text = [] ∧ hasSelection then pure none
    else do return some (replaceBy (← indentCount text (indent + 1) tabSize))

/-- A position past the old indentation keeps its way from there. -/
def trackPosition (edits : List TextEdit) (a : Shift.Association) (p : Position) :
    Checked Position :=
  match edits.find? fun e => e.range.start.line == p.line with
  | none => pure p
  | some e =>
    let oldEnd := e.range.stop.column
    if a = .before ∧ p.column = 1 then pure ⟨p.line, 1⟩
    else if oldEnd ≤ p.column then do
      return ⟨p.line, (← sub p.column (← sub oldEnd 1)) + e.text.length⟩
    else pure ⟨p.line, e.text.length + 1⟩

def trackSelection (edits : List TextEdit) (s : Selection) : Checked Selection := do
  let side (e : Bool) : Shift.Association := if !s.isEmpty && e then .before else .after
  return ⟨← trackPosition edits (side (s.direction == .forward)) s.anchor,
    ← trackPosition edits (side (s.direction == .backward)) s.head⟩

/-- Where a shift leaves a selection : a caret on a blank line behind the indentation put in. -/
def cursorAfter (edits : List TextEdit) (blankCaret : Bool) (s : Selection) : Checked Selection :=
  match edits.getLast? with
  | some e => if blankCaret then pure (.caret e.insertedEnd) else trackSelection edits s
  | none => trackSelection edits s

/-- The shift of a selection. -/
def shiftOfSelection (v : View) (s : Selection) (o : ShiftOptions) : Checked Shift := do
  let lines ← touchedLines s.range
  let edits := (← lines.mapM fun line =>
    lineEdit o (!s.isEmpty) line (v.lineContent line)).filterMap id
  let blankCaret := s.isEmpty && (v.lineContent s.range.start.line).isBlankLine
  return ⟨edits, ← cursorAfter edits blankCaret s⟩

section

variable {v : View} {s : Selection} {o : ShiftOptions} {edits : List TextEdit}

/-- A range of several lines does not end on the first line there can be. -/
theorem touchedLines_eq {r : Range} (h : 1 ≤ r.start.line) :
    touchedLines r = pure (Shift.touchedLines r) := by
  have hstop : 1 ≤ r.stop.line := by
    rcases r.start_le_stop with hlt | ⟨heq, -⟩ <;> omega
  rw [touchedLines, Shift.touchedLines, sub_eq hstop, pure_bind]
  split <;> rfl

/-- The tab size of a shift is one at least. -/
theorem lineEdit_eq (o : ShiftOptions) (hasSelection : Bool) (line : Nat) (text : Text) :
    lineEdit o hasSelection line text = pure (Shift.lineEdit? o hasSelection line text) := by
  have htab : 0 < max o.tabSize 1 := by omega
  simp only [lineEdit, Shift.lineEdit?, indentCount_eq htab, outdentCount_eq htab, pure_bind]
  cases o.direction with
  | indent => exact ite_pure _ _ _
  | outdent => exact ite_pure _ _ _

/-- An edit ends behind the indentation it replaces, so a column past it is far enough along. -/
theorem trackPosition_eq (h : ∀ e ∈ edits, 1 ≤ e.range.stop.column) (a : Shift.Association)
    (p : Position) : trackPosition edits a p = pure (Shift.trackPosition edits a p) := by
  rw [trackPosition, Shift.trackPosition]
  cases hfind : edits.find? fun e => e.range.start.line == p.line with
  | none => rfl
  | some e =>
    have hend := h e (List.mem_of_find?_eq_some hfind)
    dsimp only
    split
    · rfl
    · split
      · rename_i hle
        rw [sub_eq hend, pure_bind, sub_eq (by omega), pure_bind]
      · rfl

theorem trackSelection_eq (h : ∀ e ∈ edits, 1 ≤ e.range.stop.column) (s : Selection) :
    trackSelection edits s = pure (Shift.trackSelection edits s) := by
  simp only [trackSelection, trackPosition_eq h, pure_bind, Shift.trackSelection]

theorem cursorAfter_eq (h : ∀ e ∈ edits, 1 ≤ e.range.stop.column) (blankCaret : Bool)
    (s : Selection) : cursorAfter edits blankCaret s = pure
      (match edits.getLast? with
      | some e => if blankCaret then .caret e.insertedEnd else Shift.trackSelection edits s
      | none => Shift.trackSelection edits s) := by
  rw [cursorAfter, trackSelection_eq h]
  cases edits.getLast? with
  | none => rfl
  | some e => exact ite_pure _ _ _

/-- A shift returns if the first line is not above the first one there can be. -/
theorem shiftOfSelection_eq (v : View) (o : ShiftOptions) (h : 1 ≤ s.range.start.line) :
    shiftOfSelection v s o = pure (Shift.ofSelection v s o) := by
  have hends : ∀ e ∈ (Shift.ofSelection v s o).edits, 1 ≤ e.range.stop.column := by
    intro e he
    obtain ⟨line, -, hedit⟩ := Shift.mem_edits.mp he
    rw [(Shift.lineEdit?_ends hedit).2.1]
    exact Nat.le_add_left 1 _
  have hedits : ((Shift.touchedLines s.range).map fun line =>
      Shift.lineEdit? o (!s.isEmpty) line (v.lineContent line)).filterMap id =
        (Shift.ofSelection v s o).edits := by
    rw [List.filterMap_map]
    rfl
  simp only [shiftOfSelection, touchedLines_eq h, pure_bind, lineEdit_eq, List.mapM_pure, hedits,
    cursorAfter_eq hends]
  rfl

end

end Keystroke.Checked
