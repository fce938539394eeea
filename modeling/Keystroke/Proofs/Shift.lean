import Keystroke.Shift
import Mathlib.Logic.Basic

/-!
# The edits of a shift

A shift edits lines below one another, at most one edit a line, and an edit replaces the
leading spaces and tabs of its line by whole levels (`Shift.lineEdit?_eq`). So the edits
of a shift are in order of their lines (`Shift.pairwise_edits`), and the edit of a line
is the one the shift makes for it (`Shift.editOf?_edits`).
-/

namespace Keystroke

namespace Range

variable {line first last : Nat}

/-- Columns in order are the ends of a range. -/
theorem onLine_of_le (h : first ≤ last) :
    onLine line first last = ⟨⟨line, first⟩, ⟨line, last⟩, .inr ⟨rfl, h⟩⟩ :=
  ofEnds_of_le (p := ⟨line, first⟩) (q := ⟨line, last⟩) (.inr ⟨rfl, h⟩)

theorem start_onLine (h : first ≤ last) : (onLine line first last).start = ⟨line, first⟩ := by
  rw [onLine_of_le h]

theorem stop_onLine (h : first ≤ last) : (onLine line first last).stop = ⟨line, last⟩ := by
  rw [onLine_of_le h]

end Range

/-! ## Lines between lines -/

/-- Both the first and the last line are among them. -/
@[simp] theorem mem_linesBetween {first last line : Nat} :
    line ∈ linesBetween first last ↔ first ≤ line ∧ line ≤ last := by
  rw [linesBetween, List.mem_range'_1]
  omega

theorem pairwise_linesBetween (first last : Nat) : (linesBetween first last).Pairwise (· < ·) :=
  List.pairwise_lt_range'

theorem linesBetween_self (line : Nat) : linesBetween line line = [line] := by
  rw [linesBetween, Nat.add_sub_cancel_left]
  rfl

/-- The first and the last of two lines or more, with the ones in between. -/
theorem linesBetween_of_lt {first last : Nat} (h : first < last) :
    linesBetween first last = first :: (linesBetween (first + 1) (last - 1) ++ [last]) := by
  obtain ⟨n, rfl⟩ : ∃ n, last = first + n + 1 := ⟨last - first - 1, by omega⟩
  have hcount : first + n + 1 + 1 - first = n + 1 + 1 := by omega
  have hinner : first + n + 1 - 1 + 1 - (first + 1) = n := by omega
  rw [linesBetween, linesBetween, hcount, hinner, List.range'_succ, List.range'_concat]
  simp only [Nat.one_mul, Nat.add_right_comm]

namespace Shift

/-! ## One line -/

/-- Levels of indentation a shifted line has. -/
def levels (o : ShiftOptions) (text : Text) : Nat :=
  match o.direction with
  | .indent => indentCount text (text.leadingIndent.length + 1) (max o.tabSize 1)
  | .outdent => outdentCount text (text.leadingIndent.length + 1) (max o.tabSize 1)

/-- The indentation a shifted line has. -/
def newIndent (o : ShiftOptions) (text : Text) : Text :=
  (List.replicate (levels o text) o.oneIndent).flatten

/-- Lines a shift leaves alone : empty ones that are selected, when it indents, and ones
without indentation, when it outdents. -/
def Skips (o : ShiftOptions) (hasSelection : Bool) (text : Text) : Prop :=
  match o.direction with
  | .indent => text = [] ∧ hasSelection = true
  | .outdent => text.leadingIndent = []

instance (o : ShiftOptions) (hasSelection : Bool) (text : Text) :
    Decidable (Skips o hasSelection text) :=
  match o with
  | ⟨.indent, _, _⟩ => inferInstanceAs (Decidable (text = [] ∧ hasSelection = true))
  | ⟨.outdent, _, _⟩ => inferInstanceAs (Decidable (text.leadingIndent = []))

/-- A shifted line gets its new indentation in place of the old one. -/
theorem lineEdit?_eq (o : ShiftOptions) (hasSelection : Bool) (line : Nat) (text : Text) :
    lineEdit? o hasSelection line text =
      if Skips o hasSelection text then none
      else some ⟨.onLine line 1 (text.leadingIndent.length + 1), newIndent o text⟩ := by
  obtain ⟨d, tabSize, oneIndent⟩ := o
  simp only [lineEdit?, Text.getD_firstContent?, newIndent]
  cases d with
  | indent => exact if_congr Iff.rfl rfl rfl
  | outdent => exact if_congr List.length_eq_zero_iff rfl rfl

/-- An edit of a line goes from its start to its content and puts in the new indentation. -/
theorem lineEdit?_ends {o : ShiftOptions} {hasSelection : Bool} {line : Nat} {text : Text}
    {e : TextEdit} (h : lineEdit? o hasSelection line text = some e) :
    e.range.start = ⟨line, 1⟩ ∧ e.range.stop = ⟨line, text.leadingIndent.length + 1⟩ ∧
      e.text = newIndent o text := by
  rw [lineEdit?_eq] at h
  split at h
  · cases h
  · obtain rfl := Option.some.inj h
    have hle : 1 ≤ text.leadingIndent.length + 1 := by omega
    exact ⟨Range.start_onLine hle, Range.stop_onLine hle, rfl⟩

/-! ## All lines -/

variable {v : View} {s : Selection} {o : ShiftOptions}

/-- The touched lines are all up to a last one, which is that of the stop or the one above. -/
theorem touchedLines_eq (r : Range) :
    ∃ last, last ≤ r.stop.line ∧ touchedLines r = linesBetween r.start.line last := by
  unfold touchedLines
  split
  · exact ⟨_, Nat.sub_le _ _, rfl⟩
  · exact ⟨_, Nat.le_refl _, rfl⟩

theorem pairwise_touchedLines (r : Range) : (touchedLines r).Pairwise (· < ·) := by
  obtain ⟨last, -, h⟩ := touchedLines_eq r
  rw [h]
  exact pairwise_linesBetween _ _

/-- There is an edit for every touched line that is not skipped. -/
theorem mem_edits {e : TextEdit} :
    e ∈ (ofSelection v s o).edits ↔
      ∃ line ∈ touchedLines s.range, lineEdit? o (!s.isEmpty) line (v.lineContent line) = some e :=
  List.mem_filterMap

/-- The edit of a line. -/
def editOf? (es : List TextEdit) (line : Nat) : Option TextEdit :=
  es.find? fun e => e.range.start.line == line

/-- The edit found for a line is one on that line. -/
theorem mem_of_editOf? {es : List TextEdit} {line : Nat} {e : TextEdit}
    (h : editOf? es line = some e) : e ∈ es ∧ e.range.start.line = line :=
  ⟨List.mem_of_find?_eq_some h, by simpa using List.find?_some h⟩

/-- Edits further down do not concern a line. -/
theorem editOf?_eq_none {es : List TextEdit} {line : Nat}
    (h : ∀ e ∈ es, line < e.range.start.line) : editOf? es line = none := by
  refine List.find?_eq_none.mpr fun e he => ?_
  have := h e he
  simp only [beq_iff_eq]
  omega

/-- Looking for a key among values that are computed from their keys. -/
theorem find?_filterMap_key {β : Type} {f : Nat → Option β} {key : β → Nat}
    (h : ∀ {a e}, f a = some e → key e = a) (a : Nat) :
    ∀ l : List Nat, (l.filterMap f).find? (fun e => key e == a) = if a ∈ l then f a else none
  | [] => rfl
  | x :: l => by
    have ih := find?_filterMap_key h a l
    by_cases hx : x = a
    · subst hx
      rcases hf : f x with _ | e
      · rw [List.filterMap_cons_none hf, ih, hf]
        simp
      · rw [List.filterMap_cons_some hf, List.find?_cons, h hf]
        simp
    · rcases hf : f x with _ | e
      · rw [List.filterMap_cons_none hf, ih]
        simp [Ne.symm hx]
      · rw [List.filterMap_cons_some hf, List.find?_cons, h hf, beq_false_of_ne hx, ih]
        simp [Ne.symm hx]

/-- The edit found for a line is the one made for it. -/
theorem editOf?_edits (line : Nat) :
    editOf? (ofSelection v s o).edits line =
      if line ∈ touchedLines s.range then lineEdit? o (!s.isEmpty) line (v.lineContent line)
      else none := by
  refine find?_filterMap_key (fun {a e} h => ?_) line (touchedLines s.range)
  rw [(lineEdit?_ends h).1]

/-- Every edit is found on its line, since no line has two. -/
theorem editOf?_of_mem {e : TextEdit} (he : e ∈ (ofSelection v s o).edits) :
    editOf? (ofSelection v s o).edits e.range.start.line = some e := by
  obtain ⟨line, hline, hedit⟩ := mem_edits.mp he
  rw [editOf?_edits, (lineEdit?_ends hedit).1, if_pos hline, hedit]

/-- The edits of a shift are on lines below one another. -/
theorem pairwise_edits :
    (ofSelection v s o).edits.Pairwise fun e f => e.range.stop.line < f.range.start.line := by
  refine (pairwise_touchedLines s.range).filterMap _ fun line line' hlt e he f hf => ?_
  obtain ⟨-, hstop, -⟩ := lineEdit?_ends he
  obtain ⟨hstart, -, -⟩ := lineEdit?_ends hf
  rwa [hstop, hstart]

/-! ## Carrying positions -/

/-- A position on a line without an edit stays. -/
theorem trackPosition_of_none {es : List TextEdit} {a : Association} {p : Position}
    (h : editOf? es p.line = none) : trackPosition es a p = p := by
  unfold editOf? at h
  simp only [trackPosition, h]

/-- A position on an edited line goes along with the edit. -/
theorem trackPosition_of_some {es : List TextEdit} {a : Association} {p : Position}
    {e : TextEdit} (h : editOf? es p.line = some e) :
    trackPosition es a p =
      if a = .before ∧ p.column = 1 then ⟨p.line, 1⟩
      else if e.range.stop.column ≤ p.column then
        ⟨p.line, p.column - (e.range.stop.column - 1) + e.text.length⟩
      else ⟨p.line, e.text.length + 1⟩ := by
  unfold editOf? at h
  simp only [trackPosition, h]

/-- The selection a shift leaves : for a caret on a blank line the end of a new indentation,
for any other the selection carried along. -/
theorem cursorAfter_ofSelection :
    ((s.isEmpty = true ∧ (v.lineContent s.range.start.line).isBlankLine = true) ∧
        ∃ e ∈ (ofSelection v s o).edits,
          (ofSelection v s o).cursorAfter = .caret e.insertedEnd) ∨
      (ofSelection v s o).cursorAfter = trackSelection (ofSelection v s o).edits s := by
  rcases hlast : (ofSelection v s o).edits.getLast? with _ | e
  · refine .inr ?_
    simp only [ofSelection] at hlast ⊢
    rw [hlast]
  · have he := List.mem_of_getLast? hlast
    simp only [ofSelection] at hlast he ⊢
    rw [hlast]
    simp only
    split
    · rename_i hblank
      exact .inl ⟨Bool.and_eq_true_iff.mp hblank, e, he, rfl⟩
    · exact .inr rfl

end Shift

end Keystroke
