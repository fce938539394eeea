import Keystroke.Proofs.Replace
import Keystroke.Proofs.Selection

/-!
# Wrapping a selection

A wrap puts a character in front of the selected text and one behind it. The text between
the two starts a column further along its line; it ends one further along as well if it is
on one line, and where it ended before if it is on several (`Range.pushed`). Neither
character ends a line, so no line break is made or undone, whatever kind is next to them,
and the selection covers the same piece of the new text as of the old
(`Buffer.surround_keeps_selected`).
-/

namespace Keystroke

open Text Position

/-! ## The wrapped selection -/

namespace Range

/-- Where the text of a range is once a character is in front of it. -/
def pushed (r : Range) : Range where
  start := ⟨r.start.line, r.start.column + 1⟩
  stop := if r.isSingleLine then ⟨r.stop.line, r.stop.column + 1⟩ else r.stop
  start_le_stop := by
    have hle := r.start_le_stop
    unfold isSingleLine
    rw [le_def] at hle ⊢
    split
    · simp only
      omega
    · rename_i hlines
      rw [beq_iff_eq] at hlines
      simp only
      omega

theorem pushed_start_lt_stop {r : Range} (h : r.start < r.stop) :
    r.pushed.start < r.pushed.stop := by
  unfold pushed isSingleLine
  rw [lt_def] at h ⊢
  simp only
  split
  · simp only
    omega
  · rename_i hlines
    rw [beq_iff_eq] at hlines
    omega

end Range

/-- Short of the last column there is, a wrap selects the text it has pushed along. -/
theorem Command.wrappedSelection_eq {s : Selection} (hline : 1 ≤ s.range.start.line)
    (hstart : s.range.start.column < maxCoordinate)
    (hstop : s.range.stop.column < maxCoordinate) :
    wrappedSelection s = .ofRange s.range.pushed s.direction := by
  have hle := s.range.start_le_stop
  rw [le_def] at hle
  rw [wrappedSelection, offset_next hline hstart, offset_next (by omega) hstop]
  exact congrArg (Selection.ofRange · s.direction)
    (Range.ofEnds_of_le s.range.pushed.start_le_stop)

namespace Buffer

variable {b b' : Buffer} {r : Range} {before covered after : Text}

/-! ## Selected text -/

/-- The text between the ends of a range, or the first end that is outside the buffer. -/
def textIn? (b : Buffer) (r : Range) : Except BufferError Text := do
  let first ← b.charIndex? r.start
  let last ← b.charIndex? r.stop
  return b.text.slice first last

namespace Cut

theorem textIn? (h : b.Cut r before covered after) : b.textIn? r = .ok covered := by
  rw [Buffer.textIn?, h.charIndex?_start, h.charIndex?_stop, h.text]
  exact congrArg Except.ok (slice_append before covered after)

theorem covers (h : b.Cut r before covered after) : b.Covers r :=
  ⟨exists_charIndex?_iff.mp ⟨_, h.charIndex?_start⟩,
    exists_charIndex?_iff.mp ⟨_, h.charIndex?_stop⟩⟩

end Cut

theorem Covers.valid_ofRange (h : b.Covers r) (d : Direction) :
    b.Valid (Selection.ofRange r d).anchor ∧ b.Valid (Selection.ofRange r d).head := by
  cases d with
  | forward => exact h
  | backward => exact ⟨h.2, h.1⟩

/-- No column is further along than the text is long. -/
theorem Valid.column_le {p : Position} (h : b.Valid p) : p.column ≤ b.text.length + 1 := by
  obtain ⟨i, hi⟩ := exists_charIndex?_iff.mpr h
  have hle := charIndex?_le_length hi
  rw [charIndex?, if_pos h, Except.ok.injEq] at hi
  omega

/-! ## Wrapping -/

/-- The covered piece is one piece again between two characters that end no line. -/
theorem Cut.wrapped {opener closer : Char} (h : b.Cut r before covered after)
    (ho : Unbroken [opener]) (hc : Unbroken [closer])
    (htext : b'.text = before ++ [opener] ++ covered ++ [closer] ++ after) :
    b'.Cut r.pushed (before ++ [opener]) covered ([closer] ++ after) := by
  have hopen (t : Text) : ¬Fuses (before ++ [opener]) t := by
    rw [fuses_append_left (List.cons_ne_nil opener [])]
    exact ho.not_fuses t
  have hreach : origin.traverse (before ++ [opener]) = r.pushed.start := by
    rw [traverse_append (ho.not_fuses_right before), h.start, traverse_unbroken ho]
    rfl
  refine ⟨by rw [htext, List.append_assoc _ [closer]], hreach, ?_, hopen _, ?_⟩
  · rw [traverse_append (hopen covered), hreach]
    exact h.traverse_covered_succ
  · rw [fuses_append_right (List.cons_ne_nil closer [])]
    exact hc.not_fuses_right _

/-- A wrap in two characters that end no line puts one in front of the selected text and one
behind it. Both ends of the selection it leaves are inside the buffer, it covers the same
text, and it has the same direction. Columns are 64-bit numbers, and no text in memory comes
near the bound on them. -/
theorem surround_keeps_selected {s : Selection} {opener closer : Char}
    (hanchor : b.Valid s.anchor) (hhead : b.Valid s.head) (hne : s.isEmpty = false)
    (ho : isLineBreak opener = false) (hc : isLineBreak closer = false)
    (hroom : b.text.length + 1 < maxCoordinate) :
    ∃ before covered after b' cursor, b.text = before ++ covered ++ after ∧
      b.charIndex? s.range.start = .ok before.length ∧
      b.charIndex? s.range.stop = .ok (before ++ covered).length ∧
      b.apply (.surround s opener closer) = .ok (b', cursor) ∧
      b'.text = before ++ [opener] ++ covered ++ [closer] ++ after ∧
      b'.Valid cursor.anchor ∧ b'.Valid cursor.head ∧
      b'.textIn? cursor.range = .ok covered ∧ cursor.direction = s.direction := by
  have hs : b.Covers s.range := covers_ofEnds hanchor hhead
  obtain ⟨before, covered, after, hcut⟩ := exists_cut hs
  have hstart := hs.1.column_le
  have hstop := hs.2.column_le
  have happly := hcut.apply_surround opener closer
  rw [Command.wrappedSelection_eq hs.1.1 (by omega) (by omega)] at happly
  have hcut' : ({ b with
      text := before ++ [opener] ++ covered ++ [closer] ++ after, tokens := [] } : Buffer).Cut
      s.range.pushed (before ++ [opener]) covered ([closer] ++ after) :=
    hcut.wrapped (by simpa using ho) (by simpa using hc) rfl
  obtain ⟨hanchor', hhead'⟩ := hcut'.covers.valid_ofRange s.direction
  have hlt := Range.pushed_start_lt_stop (Selection.start_lt_stop_iff.mpr hne)
  refine ⟨before, covered, after, _, _, hcut.text, hcut.charIndex?_start, hcut.charIndex?_stop,
    happly, rfl, hanchor', hhead', ?_, Selection.direction_ofRange hlt _⟩
  rw [Selection.range_ofRange]
  exact hcut'.textIn?

/-- Backward over a lone carriage return, from behind it into the line above. -/
theorem surround_keeps_selected_return :
    let b := Buffer.ofText ['a', '\r', 'b', 'c']
    let s : Selection := ⟨⟨2, 1⟩, ⟨1, 1⟩⟩
    ∃ before covered after b' cursor, b.text = before ++ covered ++ after ∧
      b.charIndex? s.range.start = .ok before.length ∧
      b.charIndex? s.range.stop = .ok (before ++ covered).length ∧
      b.apply (.surround s '(' ')') = .ok (b', cursor) ∧
      b'.text = before ++ ['('] ++ covered ++ [')'] ++ after ∧
      b'.Valid cursor.anchor ∧ b'.Valid cursor.head ∧
      b'.textIn? cursor.range = .ok covered ∧ cursor.direction = s.direction := by
  intro b s
  exact surround_keeps_selected (by decide) (by decide) rfl (by decide) (by decide) (by decide)

end Buffer

end Keystroke
