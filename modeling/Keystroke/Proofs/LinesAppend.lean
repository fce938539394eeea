import Keystroke.Proofs.Replace

/-!
# Lines of texts put together

A text that does not fuse with the next one goes on in its first line. The lines above
and below stay as they are, and the two lines that meet become one (`Text.lines_append`).
The position between the two texts is the end of the last line of the first
(`Position.traverse_of_lines`), so the part of a line in front of a position is read off
the text in front of it, and the part after it off the text that follows
(`Buffer.textBefore_traverse`, `Buffer.textAfter_traverse`).
-/

namespace Keystroke

open Text Position

/-! ## The last line and the first -/

namespace IsLines

/-- The first of several lines is unbroken and ends in a break, which does not fuse with the lines
after it. -/
theorem of_cons {l : Line} {ls : List Line} (h : IsLines (l :: ls)) (hls : ls ≠ []) :
    Unbroken l.content ∧ IsBreak l.terminator ∧
      ¬Fuses l.terminator (ls.flatMap Line.toText) ∧ IsLines ls := by
  cases h with
  | last => exact absurd rfl hls
  | cons hu he hf h => exact ⟨hu, he, hf, h⟩

/-- The last line has no terminator. -/
theorem exists_concat {ls : List Line} (h : IsLines ls) :
    ∃ above lead, ls = above ++ [⟨lead, []⟩] := by
  induction h with
  | @last c _ => exact ⟨[], c, rfl⟩
  | @cons c e ls _ _ _ _ ih =>
    obtain ⟨above, lead, rfl⟩ := ih
    exact ⟨⟨c, e⟩ :: above, lead, rfl⟩

/-- A text cut inside a line. -/
theorem flatMap_append (above below : List Line) (lead tail e : Text) :
    (above ++ ⟨lead ++ tail, e⟩ :: below).flatMap Line.toText =
      (above ++ [Line.mk lead []]).flatMap Line.toText ++
        (⟨tail, e⟩ :: below).flatMap Line.toText := by
  simp [Line.toText]

/-- The line at the end of one cut and the line at the start of the next become one. -/
theorem append {above below : List Line} {lead tail e : Text}
    (hs : IsLines (above ++ [⟨lead, []⟩])) (hu : IsLines (⟨tail, e⟩ :: below))
    (hf : ¬Fuses ((above ++ [Line.mk lead []]).flatMap Line.toText)
      ((⟨tail, e⟩ :: below).flatMap Line.toText)) :
    IsLines (above ++ ⟨lead ++ tail, e⟩ :: below) := by
  induction above with
  | nil =>
    have hlead : Unbroken lead := hs.unbroken_content List.mem_cons_self
    cases hu with
    | last htail => exact .last (unbroken_append.mpr ⟨hlead, htail⟩)
    | cons htail he hf hbelow =>
      exact .cons (unbroken_append.mpr ⟨hlead, htail⟩) he hf hbelow
  | cons l above ih =>
    rw [List.cons_append] at hs ⊢
    obtain ⟨hl, he, hnext, hs⟩ := hs.of_cons (by simp)
    rw [List.cons_append, List.flatMap_cons, Line.toText, List.append_assoc,
      fuses_append_left (by simp [he.ne_nil])] at hf
    obtain ⟨hjoin, hf⟩ := not_fuses_of_append hnext hf
    refine .cons hl he ?_ (ih hs hf)
    rwa [flatMap_append]

/-- Reading a text leads to the end of its last line. -/
theorem traverse {above : List Line} {lead : Text} (h : IsLines (above ++ [⟨lead, []⟩]))
    (line : Nat) :
    (⟨line, 1⟩ : Position).traverse ((above ++ [Line.mk lead []]).flatMap Line.toText) =
      ⟨line + above.length, lead.length + 1⟩ := by
  induction above generalizing line with
  | nil =>
    have hlead : Unbroken lead := h.unbroken_content List.mem_cons_self
    have htext : [Line.mk lead []].flatMap Line.toText = lead := by simp [Line.toText]
    rw [List.nil_append, htext, traverse_unbroken hlead]
    simp [Nat.add_comm]
  | cons l above ih =>
    rw [List.cons_append] at h ⊢
    obtain ⟨hl, he, hnext, h⟩ := h.of_cons (by simp)
    rw [List.flatMap_cons, Line.toText, List.append_assoc,
      traverse_unbroken_append hl, traverse_break_append he hnext, ih h]
    simp [Nat.add_comm, Nat.add_left_comm]

end IsLines

/-! ## Texts -/

namespace Text

variable {s u : Text} {above below : List Line} {lead tail e : Text}

/-- Every text has a last line, and nothing ends it. -/
theorem exists_lines_eq_concat (s : Text) : ∃ above lead, lines s = above ++ [⟨lead, []⟩] :=
  (isLines_lines s).exists_concat

/-- Every text has a first line. -/
theorem exists_lines_eq_cons (u : Text) : ∃ tail e below, lines u = ⟨tail, e⟩ :: below := by
  obtain ⟨⟨tail, e⟩, below, h⟩ := (isLines_lines u).exists_cons
  exact ⟨tail, e, below, h⟩

/-- The line at the end of a text goes on in the first line of the next. -/
theorem lines_append (hs : lines s = above ++ [⟨lead, []⟩]) (hu : lines u = ⟨tail, e⟩ :: below)
    (hf : ¬Fuses s u) : lines (s ++ u) = above ++ ⟨lead ++ tail, e⟩ :: below := by
  have hls : IsLines (above ++ [⟨lead, []⟩]) := hs ▸ isLines_lines s
  have hlu : IsLines (⟨tail, e⟩ :: below) := hu ▸ isLines_lines u
  have hts : (above ++ [Line.mk lead []]).flatMap Line.toText = s := by rw [← hs, flatten_lines]
  have htu : (⟨tail, e⟩ :: below).flatMap Line.toText = u := by rw [← hu, flatten_lines]
  have hlines := hls.append hlu (by rwa [hts, htu])
  rw [← hts, ← htu, ← IsLines.flatMap_append, lines_flatMap hlines]

end Text

/-- A text leads to the end of its last line. -/
theorem Position.traverse_of_lines {s : Text} {above : List Line} {lead : Text}
    (hs : lines s = above ++ [⟨lead, []⟩]) :
    origin.traverse s = ⟨above.length + 1, lead.length + 1⟩ := by
  have hls : IsLines (above ++ [⟨lead, []⟩]) := hs ▸ isLines_lines s
  have hts : (above ++ [Line.mk lead []]).flatMap Line.toText = s := by rw [← hs, flatten_lines]
  rw [origin, ← hts, hls.traverse, Nat.add_comm]

/-! ## The line of a position -/

namespace Buffer

variable {b : Buffer} {s u : Text} {above below : List Line} {lead tail e : Text}

/-- The part of a position's line that is in front of it. -/
def textBefore (b : Buffer) (p : Position) : Text :=
  (b.lineContent p.line).take (p.column - 1)

/-- The part of a position's line that comes after it. -/
def textAfter (b : Buffer) (p : Position) : Text :=
  (b.lineContent p.line).drop (p.column - 1)

/-- A line counted from the lines above it. -/
theorem lineContent_of_lines {c : Text} (h : b.lines = above ++ ⟨c, e⟩ :: below) :
    b.lineContent (above.length + 1) = c := by
  have hlt : above.length < b.lines.length := by simp [h]
  rw [lineContent_succ hlt]
  simp [h]

/-- Its end, past its last character. -/
theorem lineEnd_of_lines {c : Text} (h : b.lines = above ++ ⟨c, e⟩ :: below) :
    b.view.lineEnd (above.length + 1) = ⟨above.length + 1, c.length + 1⟩ := by
  rw [View.lineEnd, View.maxColumn, View.lineLength, view_lineContent, lineContent_of_lines h]

theorem lineCount_of_lines {l : Line} (h : b.lines = above ++ l :: below) :
    b.lineCount = above.length + below.length + 1 := by
  rw [lineCount, h, List.length_append, List.length_cons, Nat.add_assoc]

/-- Both parts of a line that is cut. -/
theorem unbroken_of_lines (h : b.lines = above ++ ⟨lead ++ tail, e⟩ :: below) :
    Unbroken lead ∧ Unbroken tail := by
  have hline := b.unbroken_lineContent (above.length + 1)
  rwa [lineContent_of_lines h, unbroken_append] at hline

/-- What is in front of a place on a line. -/
theorem textBefore_of_lines (h : b.lines = above ++ ⟨lead ++ tail, e⟩ :: below) :
    b.textBefore ⟨above.length + 1, lead.length + 1⟩ = lead := by
  rw [textBefore, lineContent_of_lines h]
  exact List.take_left

/-- What is behind it. -/
theorem textAfter_of_lines (h : b.lines = above ++ ⟨lead ++ tail, e⟩ :: below) :
    b.textAfter ⟨above.length + 1, lead.length + 1⟩ = tail := by
  rw [textAfter, lineContent_of_lines h]
  exact List.drop_left

/-- Lines above a place do not depend on what comes below. -/
theorem lineContent_of_lt {rest : List Line} (h : b.lines = above ++ rest) {k : Nat}
    (hk : k < above.length) : b.lineContent (k + 1) = above[k].content := by
  have hlt : k < b.lines.length := by
    rw [h, List.length_append]
    omega
  rw [lineContent_succ hlt]
  simp [h, hk]

section

variable (hb : b.text = s ++ u) (hf : ¬Fuses s u)

include hb hf

/-- Two texts meet in one line, if no break fuses between them. -/
theorem lines_of_append (hs : Text.lines s = above ++ [⟨lead, []⟩])
    (hu : Text.lines u = ⟨tail, e⟩ :: below) : b.lines = above ++ ⟨lead ++ tail, e⟩ :: below := by
  rw [Buffer.lines, hb, lines_append hs hu hf]

/-- The line they meet in has the end of the one and the start of the other. -/
theorem lineContent_traverse (hs : Text.lines s = above ++ [⟨lead, []⟩])
    (hu : Text.lines u = ⟨tail, e⟩ :: below) :
    b.lineContent (origin.traverse s).line = lead ++ tail := by
  rw [traverse_of_lines hs, lineContent_of_lines (lines_of_append hb hf hs hu)]

theorem textBefore_traverse (hs : Text.lines s = above ++ [⟨lead, []⟩]) :
    b.textBefore (origin.traverse s) = lead := by
  obtain ⟨tail, e, below, hu⟩ := exists_lines_eq_cons u
  rw [textBefore, lineContent_traverse hb hf hs hu, traverse_of_lines hs]
  exact List.take_left

theorem textAfter_traverse (hu : Text.lines u = ⟨tail, e⟩ :: below) :
    b.textAfter (origin.traverse s) = tail := by
  obtain ⟨above, lead, hs⟩ := exists_lines_eq_concat s
  rw [textAfter, lineContent_traverse hb hf hs hu, traverse_of_lines hs]
  exact List.drop_left

end

end Buffer

end Keystroke
