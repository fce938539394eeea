import Keystroke.Proofs.LinesAppend
import Keystroke.Session

/-!
# Carets

A caret inside a buffer is between two pieces of its text that do not fuse
(`Buffer.Valid.exists_between`). Typing puts a text between the two, and the caret goes
to the end of it or to a place in it (`Session.editsTo_typePlain_caret`,
`Buffer.Between.apply_typeOffset_back`). What is typed is between the same two pieces
afterwards, so what several operations leave is found from one caret to the next.
-/

namespace Keystroke

open Text Position

@[simp] theorem Selection.range_caret (p : Position) : (caret p).range = .point p :=
  Range.ofEnds_self p

/-- A caret that goes back over the end of an inserted text is where reading the rest
leads. -/
theorem Placement.cursorAfter_back {r : Range} (hline : 1 ≤ r.start.line)
    (hcolumn : 1 ≤ r.start.column) {s t : Text} (hs : Unbroken s) (ht : Unbroken t) :
    (offset 0 (-(t.length : Int))).cursorAfter ⟨r, s ++ t⟩ = .caret (r.start.traverse s) := by
  have hend : r.start.traverse (s ++ t) =
      ⟨r.start.line, r.start.column + s.length + t.length⟩ := by
    rw [traverse_unbroken_append hs, traverse_unbroken ht]
  rw [cursorAfter, TextEdit.insertedEnd, hend, Position.offset, moveCoordinate_zero hline,
    moveCoordinate_add_neg (Nat.le_add_right_of_le hcolumn), traverse_unbroken hs]

/-! ## Between two pieces -/

namespace Buffer

/-- The position is between two pieces of the text that do not fuse. -/
structure Between (b : Buffer) (p : Position) (before after : Text) : Prop where
  text : b.text = before ++ after
  not_fuses : ¬Fuses before after
  position : origin.traverse before = p

variable {b : Buffer} {p : Position} {before after : Text}

theorem Valid.exists_between (h : b.Valid p) : ∃ before after, b.Between p before after := by
  obtain ⟨i, hi⟩ := exists_charIndex?_iff.mpr h
  obtain ⟨before, after, htext, -, hf, hp⟩ := charIndex?_eq_ok_iff.mp hi
  exact ⟨before, after, htext, hf, hp⟩

namespace Between

theorem valid (h : b.Between p before after) : b.Valid p := by
  rw [← h.position]
  exact valid_traverse_of_not_fuses h.text h.not_fuses

theorem cut (h : b.Between p before after) : b.Cut (.point p) before [] after where
  text := by simpa using h.text
  start := h.position
  stop := by rw [List.append_nil]; exact h.position
  not_fuses_start := h.not_fuses
  not_fuses_stop := by simpa using h.not_fuses

/-- The end of a text put in is between it and what comes after it then. -/
theorem insert {t after' : Text} {b' : Buffer} (h : b.Between p before after)
    (hb' : b'.text = before ++ t ++ after') (hst : ¬Fuses before t)
    (hd : ¬Fuses (before ++ t) after') : b'.Between (p.traverse t) (before ++ t) after' where
  text := hb'
  not_fuses := hd
  position := by rw [traverse_append hst, h.position]

/-- Two texts on one line with the caret between them. -/
theorem apply_typeOffset_back (h : b.Between p before after) {t u : Text} (ht : Unbroken t)
    (hu : Unbroken u) :
    b.apply (.typeOffset (.point p) (t ++ u) 0 (-(u.length : Int))) =
      .ok ({ b with text := before ++ (t ++ u) ++ after, tokens := [] },
        .caret (p.traverse t)) := by
  have happly := h.cut.apply_replace (t ++ u) (.offset 0 (-(u.length : Int)))
  rwa [Placement.cursorAfter_back h.valid.1 h.valid.2.2.1 ht hu] at happly

/-- The character after a position is the first one of the text that follows. -/
theorem getElem?_column {c : Char} (h : b.Between p before (c :: after))
    (hc : isLineBreak c = false) : (b.lineContent p.line)[p.column - 1]? = some c := by
  obtain ⟨tail, e, below, hu⟩ := exists_lines_eq_cons after
  have hlines : Text.lines (c :: after) = ⟨c :: tail, e⟩ :: below := by
    rw [lines_cons hc, hu, consFirst]
  have htail : b.textAfter p = c :: tail := by
    rw [← h.position]
    exact textAfter_traverse h.text h.not_fuses hlines
  rw [textAfter] at htail
  rw [← List.head?_drop, htail, List.head?_cons]

end Between

end Buffer

/-! ## Operations in a session -/

namespace Outcome

/-- The outcome has a command, and applying it leaves a buffer and a selection. -/
def Applies (o : Outcome) (b b' : Buffer) (cursor : Selection) : Prop :=
  ∃ c, o.command? = some c ∧ b.apply c = .ok (b', cursor)

theorem applies_ofCommand {c : Command} {b b' : Buffer} {cursor : Selection}
    (h : b.apply c = .ok (b', cursor)) : (ofCommand c).Applies b b' cursor :=
  ⟨c, rfl, h⟩

/-- An outcome leaves one buffer and one selection. -/
theorem Applies.unique {o : Outcome} {b b₁ b₂ : Buffer} {s₁ s₂ : Selection}
    (h₁ : o.Applies b b₁ s₁) (h₂ : o.Applies b b₂ s₂) : b₁ = b₂ ∧ s₁ = s₂ := by
  obtain ⟨c, hc, happly₁⟩ := h₁
  obtain ⟨_, hc', happly₂⟩ := h₂
  cases hc.symm.trans hc'
  cases happly₁.symm.trans happly₂
  exact ⟨rfl, rfl⟩

end Outcome

namespace Session

variable {s : Session}

/-- No step of a run is refused. -/
def Unrefused : Session → List Step → Prop
  | _, [] => True
  | s, e :: es => (s.step e).2.refused? = none ∧ Unrefused (s.step e).1 es

/-- Neither of two runs is refused, and they leave the same text and the same selection. -/
structure SameAfter (s : Session) (es es' : List Step) : Prop where
  left : s.Unrefused es
  right : s.Unrefused es'
  text : (s.runAll es).buffer.text = (s.runAll es').buffer.text
  cursor : (s.runAll es).cursor = (s.runAll es').cursor

/-- The command of an operation is applied, and leaves this text and this selection. -/
structure EditsTo (s : Session) (e : EditStep) (t : Text) (cursor : Selection) : Prop where
  unrefused : (s.step (.edit e)).2.refused? = none
  text : (s.step (.edit e)).1.buffer.text = t
  cursor : (s.step (.edit e)).1.cursor = cursor

theorem editsTo_of_applies {e : EditStep} {b' : Buffer} {cursor : Selection}
    (h : (e.outcome s.context s.cursor).Applies s.buffer b' cursor) :
    s.EditsTo e b'.text cursor := by
  obtain ⟨c, hc, happly⟩ := h
  have hstep : s.step (.edit e) = _ := run_of_ok hc happly
  exact ⟨by rw [hstep], by rw [hstep], by rw [hstep]⟩

/-- A text typed over the selection is put in its place. -/
theorem editsTo_typePlain {before covered after : Text}
    (h : s.buffer.Cut s.cursor.range before covered after) (t : Text) :
    s.EditsTo (.typePlain t) (before ++ t ++ after) (.caret (s.cursor.start.traverse t)) := by
  have happly := h.apply_replace t .followText
  have hdone : ((EditStep.typePlain t).outcome s.context s.cursor).Applies s.buffer _ _ :=
    Outcome.applies_ofCommand happly
  exact editsTo_of_applies hdone

theorem editsTo_typePlain_caret {p : Position} {before after : Text}
    (hcursor : s.cursor = .caret p) (h : s.buffer.Between p before after) (t : Text) :
    s.EditsTo (.typePlain t) (before ++ t ++ after) (.caret (p.traverse t)) := by
  have hrange : s.cursor.range = .point p := by rw [hcursor, Selection.range_caret]
  have hcut := h.cut
  rw [← hrange] at hcut
  have hedits := editsTo_typePlain hcut t
  rwa [Selection.start, hrange] at hedits

end Session

end Keystroke
