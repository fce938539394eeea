import Keystroke.Proofs.Inserted
import Keystroke.Proofs.Replace

/-!
# Lines after a shift

The edits of a shift each replace the start of a line, so the text after the shift is made
of the old lines with new starts (`Buffer.apply_shift`) : as many of them, with the same
terminators. An end of the selection that is carried along stays on its line and inside
it, so a shift of a safe buffer is accepted (`Buffer.accepts_shift`).
-/

namespace Keystroke

open Text Position

/-! ## Replacing in one line -/

namespace Splice

/-- A replacement behind a text leaves the text in front. -/
theorem apply_append (x y : Text) (i j : Nat) (t : Text) :
    apply ⟨x.length + i, x.length + j, t⟩ (x ++ y) = x ++ apply ⟨i, j, t⟩ y := by
  simp only [apply, List.take_length_add_append, List.drop_length_add_append, List.append_assoc]

/-- Replacing the first characters of a line changes that line only. -/
theorem apply_flatMap (t : Text) :
    ∀ {ls : List Line} {k c : Nat} (hk : k < ls.length), c ≤ ls[k].content.length →
      apply ⟨lineStart ls k, lineStart ls k + c, t⟩ (ls.flatMap Line.toText) =
        (ls.set k { ls[k] with content := t ++ ls[k].content.drop c }).flatMap Line.toText
  | l :: ls, 0, c, _, hc => by
    have hc : c ≤ l.content.length := hc
    simp only [apply, lineStart, List.take_zero, List.nil_append, Nat.zero_add, List.flatMap_cons,
      Line.toText, List.append_assoc, List.set_cons_zero, List.getElem_cons_zero]
    rw [List.drop_append_of_le_length hc]
  | l :: ls, k + 1, c, hk, hc => by
    have hsize : l.size = l.toText.length := by simp [Line.size, Line.toText]
    rw [List.flatMap_cons, lineStart, hsize, Nat.add_assoc, apply_append,
      apply_flatMap t (Nat.lt_of_succ_lt_succ hk) hc]
    rfl

end Splice

/-- Where a line starts depends on the lines above it. -/
theorem lineStart_congr :
    ∀ {ls ls' : List Line} {k : Nat}, ls.take k = ls'.take k → lineStart ls k = lineStart ls' k
  | ls, ls', 0, _ => by simp
  | [], [], k + 1, _ => rfl
  | [], _ :: _, k + 1, h => by simp at h
  | _ :: _, [], k + 1, h => by simp at h
  | l :: ls, l' :: ls', k + 1, h => by
    have hcons : l :: ls.take k = l' :: ls'.take k := h
    obtain ⟨rfl, htail⟩ := List.cons.inj hcons
    simp only [lineStart, lineStart_congr htail]

/-! ## Lines with new starts -/

namespace Line

/-- The line with the text of an edit in place of the characters its range covers. -/
def edited (l : Line) : Option TextEdit → Line
  | none => l
  | some e => { l with content := e.text ++ l.content.drop (e.range.stop.column - 1) }

@[simp] theorem edited_none (l : Line) : l.edited none = l := rfl

end Line

namespace Shift

/-- Lines after edits of their starts. -/
def editedLines (es : List TextEdit) (ls : List Line) : List Line :=
  ls.mapIdx fun k l => l.edited (editOf? es (k + 1))

variable {es : List TextEdit} {ls : List Line}

@[simp] theorem length_editedLines : (editedLines es ls).length = ls.length :=
  List.length_mapIdx

/-- A line is edited by the edit on it, if there is one. -/
theorem getElem_editedLines {k : Nat} (hk : k < ls.length)
    (_ : k < (editedLines es ls).length) :
    (editedLines es ls)[k] = ls[k].edited (editOf? es (k + 1)) :=
  List.getElem_mapIdx

@[simp] theorem editedLines_nil : editedLines [] ls = ls := by
  refine List.ext_getElem (by simp) fun k hk hk' => ?_
  rw [getElem_editedLines hk' hk]
  rfl

/-- Lines above the first edit stay. -/
theorem getElem_editedLines_of_lt {k : Nat} (hk : k < ls.length)
    (hk' : k < (editedLines es ls).length) (h : ∀ e ∈ es, k + 1 < e.range.start.line) :
    (editedLines es ls)[k] = ls[k] := by
  rw [getElem_editedLines hk hk', editOf?_eq_none h, Line.edited_none]

/-- Edits further down do not move the start of a line. -/
theorem lineStart_editedLines {k : Nat} (hk : k ≤ ls.length)
    (h : ∀ e ∈ es, k < e.range.start.line) : lineStart (editedLines es ls) k = lineStart ls k := by
  refine lineStart_congr (List.ext_getElem (by simp) fun j hj hj' => ?_)
  simp only [List.length_take] at hj hj'
  rw [List.getElem_take, List.getElem_take]
  refine getElem_editedLines_of_lt (by omega) (by omega) fun e he => ?_
  have := h e he
  omega

/-- Edits are made line by line. -/
theorem editedLines_cons {e : TextEdit} {k : Nat} (hk : k < ls.length)
    (he : e.range.start.line = k + 1) :
    editedLines (e :: es) ls = (editedLines es ls).set k (ls[k].edited (some e)) := by
  refine List.ext_getElem (by simp) fun j hj hj' => ?_
  have hjs : j < ls.length := by simpa using hj
  rw [List.getElem_set, getElem_editedLines hjs, getElem_editedLines hjs, editOf?,
    List.find?_cons]
  by_cases hjk : k = j
  · subst hjk
    simp [he]
  · have hne : (e.range.start.line == j + 1) = false := by
      rw [he]
      simp [hjk]
    rw [hne, if_neg hjk]
    rfl

end Shift

namespace Buffer

variable {b : Buffer}

open Shift

/-- Where an edit of the start of a line is made. -/
theorem Locates.exists_line {e : TextEdit} {s : Splice} (hs : b.Locates e s)
    (hcol : e.range.start.column = 1) (hline : e.range.stop.line = e.range.start.line) :
    ∃ k c, ∃ hk : k < b.lines.length, e.range.start.line = k + 1 ∧
      e.range.stop.column = c + 1 ∧ c ≤ b.lines[k].content.length ∧
        s = ⟨lineStart b.lines k, lineStart b.lines k + c, e.text⟩ := by
  obtain ⟨first, last, text⟩ := s
  obtain ⟨hfirst, hlast, rfl⟩ := hs
  obtain ⟨k, c, hk, hstart, -, hfirst⟩ := charIndex?_eq_ok_iff_exists.mp hfirst
  obtain ⟨k', c', hk', hstop, hc', hlast⟩ := charIndex?_eq_ok_iff_exists.mp hlast
  rw [hstart, hstop] at hline
  rw [hstart] at hcol
  obtain rfl : c = 0 := by simpa using hcol
  obtain rfl : k' = k := by simpa using hline
  refine ⟨k', c', hk, by rw [hstart], by rw [hstop], hc', ?_⟩
  rw [Splice.mk.injEq]
  exact ⟨hfirst, hlast, rfl⟩

/-- Edits of the starts of lines below one another change just those. -/
theorem applyAll_eq_editedLines {es : List TextEdit} {ss : List Splice}
    (hss : List.Forall₂ b.Locates es ss)
    (horder : es.Pairwise fun e f => e.range.stop.line < f.range.start.line)
    (hes : ∀ e ∈ es, e.range.start.column = 1 ∧ e.range.stop.line = e.range.start.line) :
    Splice.applyAll ss b.text = (editedLines es b.lines).flatMap Line.toText := by
  induction hss with
  | nil => simp [Splice.applyAll, flatMap_lines]
  | @cons e s es ss hs _ ih =>
    obtain ⟨hbelow, horder⟩ := List.pairwise_cons.mp horder
    obtain ⟨hcol, hline⟩ := hes e (by simp)
    obtain ⟨k, c, hk, hstart, hstop, hc, rfl⟩ := hs.exists_line hcol hline
    have hbelow : ∀ f ∈ es, k + 1 < f.range.start.line := by
      rwa [hline, hstart] at hbelow
    -- the edits below have not changed the line yet, nor where it starts
    have hk' : k < (editedLines es b.lines).length := by simpa using hk
    have hget : (editedLines es b.lines)[k] = b.lines[k] :=
      getElem_editedLines_of_lt hk hk' hbelow
    have hlineStart : lineStart (editedLines es b.lines) k = lineStart b.lines k :=
      lineStart_editedLines (Nat.le_of_lt hk) fun f hf => Nat.lt_of_succ_lt (hbelow f hf)
    rw [Splice.applyAll_cons, ih horder fun f hf => hes f (by simp [hf]), ← hlineStart,
      Splice.apply_flatMap _ hk' (by rwa [hget]), hget, editedLines_cons hk hstart, Line.edited,
      hstop, Nat.add_sub_cancel]

end Buffer

/-! ## The lines a shift leaves -/

namespace Buffer

variable {b : Buffer} {s : Selection} {o : ShiftOptions}

open Shift

/-- An edit of a shift replaces the indentation of a line. -/
theorem exists_of_mem_edits (hs : b.Covers s.range) {e : TextEdit}
    (he : e ∈ (ofSelection b.view s o).edits) :
    ∃ k, ∃ hk : k < b.lines.length, e.range.start = ⟨k + 1, 1⟩ ∧
      e.range.stop = ⟨k + 1, b.lines[k].content.leadingIndent.length + 1⟩ ∧
        e.text = newIndent o b.lines[k].content := by
  obtain ⟨line, hline, he⟩ := mem_edits.mp he
  obtain ⟨last, hlast, htouched⟩ := touchedLines_eq s.range
  rw [htouched, mem_linesBetween] at hline
  have hpos : 1 ≤ s.range.start.line := hs.1.1
  have hcount : s.range.stop.line ≤ b.lines.length := hs.2.2.1
  obtain ⟨k, rfl⟩ : ∃ k, line = k + 1 := ⟨line - 1, by omega⟩
  have hk : k < b.lines.length := by omega
  obtain ⟨hstart, hstop, htext⟩ := lineEdit?_ends he
  rw [view_lineContent, lineContent_succ hk] at hstop htext
  exact ⟨k, hk, hstart, hstop, htext⟩

/-- A shift inside the buffer is applied to the starts of lines. -/
theorem apply_shift (hs : b.Covers s.range) :
    b.apply (.shift (.ofSelection b.view s o)) =
      .ok ({ b with
          text := (editedLines (ofSelection b.view s o).edits b.lines).flatMap Line.toText,
          tokens := [] },
        (ofSelection b.view s o).cursorAfter) := by
  have hvalid : ∀ p ∈ TextEdit.ends (ofSelection b.view s o).edits, b.Valid p := by
    intro p hp
    obtain ⟨e, he, hp⟩ := List.mem_flatMap.mp hp
    obtain ⟨k, hk, hstart, hstop, -⟩ := exists_of_mem_edits hs he
    have hle := length_leadingIndent_le b.lines[k].content
    rcases List.mem_pair.mp hp with rfl | rfl
    · rw [hstart, valid_succ_iff hk]
      omega
    · rw [hstop, valid_succ_iff hk]
      omega
  obtain ⟨ss, hss⟩ := splices?_of_valid hvalid
  have hl := splices?_eq_ok_iff.mp hss
  have hes : ∀ e ∈ (ofSelection b.view s o).edits,
      e.range.start.column = 1 ∧ e.range.stop.line = e.range.start.line := by
    intro e he
    obtain ⟨k, hk, hstart, hstop, -⟩ := exists_of_mem_edits hs he
    rw [hstart, hstop]
    exact ⟨rfl, rfl⟩
  rw [apply_of_locates (c := .shift (.ofSelection b.view s o)) hl,
    applyAll_eq_editedLines hl pairwise_edits hes]
  rfl

/-- The lines a shift leaves are the lines of its text. -/
theorem isLines_editedLines (hb : NoBareReturn b.text) (hs : b.Covers s.range)
    (ho : Unbroken o.oneIndent) :
    IsLines (editedLines (ofSelection b.view s o).edits b.lines) ∧
      NoBareReturn
        ((editedLines (ofSelection b.view s o).edits b.lines).flatMap Line.toText) := by
  refine isLines.withContents (by rwa [flatMap_lines]) ?_
  refine List.forall₂_iff_get.mpr ⟨by simp, fun k hk hk' => ?_⟩
  have hu := isLines.unbroken_content (List.getElem_mem hk)
  simp only [List.get_eq_getElem, getElem_editedLines hk]
  rcases he : editOf? (ofSelection b.view s o).edits (k + 1) with _ | e
  · exact ⟨hu, rfl⟩
  · obtain ⟨_, _, _, _, htext⟩ := exists_of_mem_edits hs (mem_of_editOf? he).1
    refine ⟨unbroken_append.mpr ⟨?_, hu.drop _⟩, rfl⟩
    rw [htext]
    exact unbroken_flatten_replicate ho _

/-! ## The selection a shift leaves -/

section

variable {b' : Buffer} (hb' : b'.lines = editedLines (ofSelection b.view s o).edits b.lines)

include hb'

/-- The places on a line after a shift. -/
theorem valid_edited_iff {k column : Nat} (hk : k < b.lines.length) :
    b'.Valid ⟨k + 1, column⟩ ↔ 1 ≤ column ∧ column ≤
      (b.lines[k].edited (editOf? (ofSelection b.view s o).edits (k + 1))).content.length + 1 := by
  rw [valid_succ_iff (by simpa [hb'] using hk)]
  simp only [hb', getElem_editedLines hk]

/-- The end of a new indentation is inside the new line. -/
theorem valid_insertedEnd (hs : b.Covers s.range) (ho : Unbroken o.oneIndent) {e : TextEdit}
    (he : e ∈ (ofSelection b.view s o).edits) : b'.Valid e.insertedEnd := by
  obtain ⟨k, hk, hstart, -, htext⟩ := exists_of_mem_edits hs he
  have hu : Unbroken e.text := htext ▸ unbroken_flatten_replicate ho _
  have hof := editOf?_of_mem he
  rw [hstart] at hof
  rw [TextEdit.insertedEnd, traverse_unbroken hu, hstart, valid_edited_iff hb' hk, hof, Line.edited]
  simp only [List.length_append]
  omega

/-- A position carried along stays inside its line. -/
theorem valid_trackPosition (hs : b.Covers s.range) (a : Association) {p : Position}
    (hp : b.Valid p) : b'.Valid (trackPosition (ofSelection b.view s o).edits a p) := by
  obtain ⟨k, hk, hline⟩ := hp.exists_line
  obtain ⟨line, column⟩ := p
  obtain rfl : line = k + 1 := hline
  rw [valid_succ_iff hk] at hp
  rcases hof : editOf? (ofSelection b.view s o).edits (k + 1) with _ | e
  · rw [trackPosition_of_none hof, valid_edited_iff hb' hk, hof]
    exact hp
  · obtain ⟨he, hstart⟩ := mem_of_editOf? hof
    obtain ⟨k', hk', hstart', hstop, -⟩ := exists_of_mem_edits hs he
    obtain rfl : k' = k := by simpa [hstart'] using hstart
    have hle := length_leadingIndent_le b.lines[k'].content
    have hvalid : ∀ column, b'.Valid ⟨k' + 1, column⟩ ↔ 1 ≤ column ∧ column ≤ e.text.length +
        (b.lines[k'].content.length - b.lines[k'].content.leadingIndent.length) + 1 := by
      intro column
      rw [valid_edited_iff hb' hk, hof, Line.edited, hstop]
      simp
    rw [trackPosition_of_some hof, hstop]
    split
    · rw [hvalid]
      omega
    · split
      · rename_i hcol
        simp only at hcol ⊢
        rw [hvalid]
        omega
      · rw [hvalid]
        omega

end

/-- A shift of a safe buffer puts new starts on its lines and leaves it safe. -/
theorem exists_apply_editedLines (hs : b.Safe s) (ho : Unbroken o.oneIndent) :
    ∃ b' : Buffer, b'.lines = editedLines (ofSelection b.view s o).edits b.lines ∧
      b.apply (.shift (.ofSelection b.view s o)) =
        .ok (b', (ofSelection b.view s o).cursorAfter) ∧
          b'.Safe (ofSelection b.view s o).cursorAfter := by
  obtain ⟨hlines, hnb⟩ := isLines_editedLines hs.noBareReturn hs.covers ho
  obtain ⟨b', htext, happly⟩ : ∃ b' : Buffer,
      b'.text = (editedLines (ofSelection b.view s o).edits b.lines).flatMap Line.toText ∧
        b.apply (.shift (.ofSelection b.view s o)) =
          .ok (b', (ofSelection b.view s o).cursorAfter) :=
    ⟨_, rfl, apply_shift hs.covers⟩
  have hlines' : b'.lines = editedLines (ofSelection b.view s o).edits b.lines := by
    rw [lines, htext, lines_flatMap hlines]
  have hnb' : NoBareReturn b'.text := htext ▸ hnb
  refine ⟨b', hlines', happly, ?_⟩
  rcases cursorAfter_ofSelection (v := b.view) (s := s) (o := o) with ⟨-, e, he, hc⟩ | hc
  · rw [hc]
    exact safe_caret hnb' (valid_insertedEnd hlines' hs.covers ho he)
  · rw [hc]
    exact ⟨hnb', valid_trackPosition hlines' hs.covers _ hs.anchor,
      valid_trackPosition hlines' hs.covers _ hs.head⟩

/-- A shift of a safe buffer by indentation that ends no line is accepted. -/
theorem accepts_shift (hs : b.Safe s) (ho : Unbroken o.oneIndent) :
    b.Accepts (.shift (.ofSelection b.view s o)) := by
  obtain ⟨b', -, happly, hsafe⟩ := exists_apply_editedLines hs ho
  exact ⟨b', _, happly, hsafe⟩

end Buffer

end Keystroke
