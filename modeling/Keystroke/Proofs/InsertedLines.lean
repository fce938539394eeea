import Keystroke.Proofs.NewLines
import Keystroke.Proofs.Selection

/-!
# Lines put in between lines

Opening a line and pasting a whole line put new lines between the lines there are. A buffer
has the new lines below the first so many (`Buffer.InsertsLines`) when the rest of its lines
have the contents they had before, in the same order. A line is opened by a break at the end
of a line. There nothing is left for a closer to come next, so the break makes one new line
(`Context.opens_line`). A whole line is pasted at the start of a line. It ends in a line feed,
so that line starts anew behind it, whatever line breaks the text has besides
(`Session.paste_above`).
-/

namespace Keystroke

open Text Position

/-! ## New lines in a buffer -/

namespace Buffer

/-- What the lines hold without their terminators, in order. -/
def contents (b : Buffer) : List Text :=
  b.lines.map Line.content

/-- New lines are put in below the first so many, and all others keep what they hold. -/
def InsertsLines (b b' : Buffer) (count : Nat) (new : List Text) : Prop :=
  b'.contents = b.contents.take count ++ (new ++ b.contents.drop count)

theorem insertsLines_of_lines {b b' : Buffer} {above below : List Line} {new : List Text}
    (h : b.lines = above ++ below)
    (h' : b'.contents = above.map Line.content ++ (new ++ below.map Line.content)) :
    b.InsertsLines b' above.length new := by
  have hlength : above.length = (above.map Line.content).length := by rw [List.length_map]
  rw [InsertsLines, h', contents, h, List.map_append, hlength, List.take_left, List.drop_left]

/-- A line of spaces and tabs is put in below the first so many, and the caret is at the end
of it. -/
structure OpensLine (b b' : Buffer) (count : Nat) (new : Text) (cursor : Selection) : Prop where
  inserts : b.InsertsLines b' count [new]
  indent : AllIndent new
  cursor : cursor = .caret ⟨count + 1, new.length + 1⟩

end Buffer

/-! ## Answers at the end of a line -/

namespace BracketRules

variable (r : BracketRules) (before after : Text)

/-- The indentation of a new line is taken from the line that is broken, with one tab at most
behind it. -/
theorem allIndent_answer :
    AllIndent (r.answer before after).indentation ∧ AllIndent (r.answer before after).append := by
  have hindent := allIndent_leadingIndent before
  have hnone : AllIndent [] := by decide
  have htab : AllIndent ['\t'] := by decide
  unfold answer
  cases before.trimEnd.getLast?.bind r.closerOf? with
  | none => exact ⟨hindent, hnone⟩
  | some closer => exact ⟨hindent, htab⟩

/-- At the end of a line no closer comes next. -/
theorem action_answer_nil : (r.answer before []).action ≠ .indentOutdent := by
  unfold answer
  cases before.trimEnd.getLast?.bind r.closerOf? with
  | none => exact (by decide : IndentAction.keep ≠ .indentOutdent)
  | some closer =>
    have hnone : (trimStart []).head? ≠ some closer := by simp [trimStart]
    simp [hnone]

end BracketRules

/-- A break at the end of a line puts in one new line of spaces and tabs. -/
theorem Config.allIndent_innerLine_answer (c : Config) (r : BracketRules) (before : Text) :
    AllIndent (c.innerLine (r.answer before [])) := by
  obtain ⟨hindent, happend⟩ := r.allIndent_answer before []
  exact c.style.allIndent_normalize (c.allIndent_breakIndent hindent happend)

/-! ## Opening a line -/

namespace Context

variable {ctx : Context} {b : Buffer} {r : BracketRules} {s : Selection}

/-- A line is broken as Enter does it if the rules have an answer. -/
theorem breakLine_of_some (keep : Bool) {range : Range} {a : EnterAnswer}
    (ha : ctx.rules.enter? ctx.view range.start.line range.start.column = some a) :
    ctx.breakLine keep range = ctx.enter keep range := by
  rw [breakLine, toOption_enter keep ha]
  rfl

section

variable (hv : ctx.view = b.view) (hrules : ctx.rules = r.toRules) (hb : NoBareReturn b.text)

include hv hrules hb

/-- A break at the end of a line puts in one line below it. -/
theorem breakLine_lineEnd {above below : List Line} {content e : Text}
    (hlines : b.lines = above ++ ⟨content, e⟩ :: below) :
    ∃ b' : Buffer,
      (ctx.breakLine false (.point (b.view.lineEnd (above.length + 1)))).Applies b b'
          (.caret ⟨above.length + 2,
            (ctx.config.innerLine (r.answer content [])).length + 1⟩) ∧
        b'.lines = above ++ ⟨content, ['\n']⟩ ::
          ⟨ctx.config.innerLine (r.answer content []), e⟩ :: below := by
  have hwhole : b.lines = above ++ ⟨content ++ [], e⟩ :: below := by rwa [List.append_nil]
  have hanswer := r.enter_of_lines hwhole
  have hu := r.unbroken_enter b.view (above.length + 1) (content.length + 1)
  rw [hanswer] at hu
  have hne := r.action_answer_nil content
  have hsome : ctx.rules.enter? ctx.view (above.length + 1) (content.length + 1) =
      some (r.answer content []) := by
    rw [hv, hrules, ← hanswer]
    rfl
  obtain ⟨hbefore, -, -⟩ := (Buffer.between_of_lines hwhole).cut.noBareReturn hb
  obtain ⟨b', hlines', -, -, happly⟩ := Buffer.exists_apply_break hwhole (hbefore.not_fuses _)
    (ctx.config.lines_breakText hu hne) (ctx.config.noBareReturn_breakText hu)
    (ctx.config.breakPlacement (r.answer content []) false)
  rw [ctx.config.cursorAfter_breakPlacement_of_ne hu hne] at happly
  rw [Buffer.lineEnd_of_lines hlines, breakLine_of_some false hsome]
  exact ⟨b', ⟨_, enter_of_some false hsome, happly⟩, by simpa using hlines'⟩

/-- What it puts in is spaces and tabs. -/
theorem opensLine_breakLine {p : Position} (hp : b.Valid p) :
    ∃ b' new cursor,
      (ctx.breakLine false (.point (ctx.view.lineEnd p.line))).Applies b b' cursor ∧
        b.OpensLine b' p.line new cursor := by
  obtain ⟨above, lead, tail, e, below, hlines, rfl⟩ := hp.exists_lines
  obtain ⟨b', happlies, hlines'⟩ := breakLine_lineEnd hv hrules hb hlines
  have hold : b.lines = (above ++ [⟨lead ++ tail, e⟩]) ++ below := by simp [hlines]
  have hnew : b'.contents = (above ++ [Line.mk (lead ++ tail) e]).map Line.content ++
      ([ctx.config.innerLine (r.answer (lead ++ tail) [])] ++ below.map Line.content) := by
    simp [Buffer.contents, hlines']
  have hinserts := Buffer.insertsLines_of_lines hold hnew
  rw [List.length_append, List.length_singleton] at hinserts
  rw [hv]
  exact ⟨b', _, _, happlies, hinserts, ctx.config.allIndent_innerLine_answer r _, rfl⟩

end

/-- With the caret in the first line, a line is opened above it by a line feed in front of the
text. -/
theorem openAbove_first (hp : b.Valid s.head) (hline : s.head.line = 1) :
    ∃ b' cursor, (ctx.openAbove s).Applies b b' cursor ∧ b.OpensLine b' 0 [] cursor := by
  obtain ⟨above, lead, tail, e, below, hlines, hhead⟩ := hp.exists_lines
  generalize lead ++ tail = content at hlines
  obtain rfl : above = [] := by
    rw [hhead] at hline
    exact List.length_eq_zero_iff.mp (Nat.succ.inj hline)
  have hstart : b.lines = [] ++ ⟨[] ++ content, e⟩ :: below := hlines
  have hbreak : lines ['\n'] = ⟨[], ['\n']⟩ :: ([] ++ [⟨[], []⟩]) := rfl
  obtain ⟨b', hlines', -, -, happly⟩ := Buffer.exists_apply_break hstart (not_fuses_nil_left _)
    hbreak (by decide) .keepPosition
  refine ⟨b', _, ⟨_, ?_, happly⟩, ?_, by decide, rfl⟩
  · rw [openAbove, if_pos hline]
    rfl
  · exact Buffer.insertsLines_of_lines hlines (by simp [Buffer.contents, hlines'])

end Context

/-! ## Pasting a line -/

/-- A text that ends in a line feed has an empty line behind that, and one in front of it. -/
theorem Text.exists_lines_of_getLast? {t : Text} (h : t.getLast? = some '\n') :
    ∃ new, lines t = new ++ [⟨[], []⟩] ∧ new ≠ [] := by
  obtain ⟨new, last, hlines⟩ := exists_lines_eq_concat t
  have htext : t = new.flatMap Line.toText ++ last := by
    rw [← flatten_lines t, hlines]
    simp [Line.toText]
  have hlast : Unbroken last :=
    IsLines.unbroken_content (hlines ▸ isLines_lines t) (List.mem_append_right _ List.mem_cons_self)
  obtain rfl : last = [] := by
    refine Decidable.byContradiction fun hne => ?_
    rw [htext, List.getLast?_append_of_ne_nil _ hne] at h
    have hbreak : isLineBreak '\n' = false := hlast '\n' (List.mem_of_getLast? h)
    exact absurd hbreak (by decide)
  refine ⟨new, hlines, ?_⟩
  rintro rfl
  simp [htext] at h

/-- One line feed, at the end of the text. -/
theorem Text.isOneLine_iff {t : Text} :
    t.isOneLine = true ↔ t.getLast? = some '\n' ∧ '\n' ∉ t.dropLast := by
  rw [isOneLine, Bool.and_eq_true, beq_iff_eq, beq_iff_eq]
  refine and_congr_right fun h => ?_
  obtain ⟨u, rfl⟩ := List.getLast?_eq_some_iff.mp h
  rw [List.dropLast_concat, List.count_append, List.count_singleton_self, Nat.add_eq_right,
    List.count_eq_zero]

namespace Buffer

variable {b : Buffer} {s : Selection}

/-- The selection is a caret, or covers the line of the caret from its start to its end. -/
def SelectsLine (b : Buffer) (s : Selection) : Prop :=
  s.isEmpty = true ∨ s.range = .onLine s.head.line 1 (b.view.maxColumn s.head.line)

theorem isCaretOrLine_iff {ctx : Context} (hv : ctx.view = b.view) :
    ctx.isCaretOrLine s.range = true ↔ b.SelectsLine s := by
  rw [Context.isCaretOrLine, hv, Selection.isSingleLine_range, Selection.isEmpty_range]
  simp only [Bool.and_eq_true, Bool.or_eq_true, beq_iff_eq, View.minColumn]
  constructor
  · rintro ⟨hsingle, hempty | ⟨hstart, hstop⟩⟩
    · exact .inl hempty
    · have hr := Range.eq_onLine ((Selection.isSingleLine_range s).trans hsingle)
      rw [hstart, hstop, Selection.start_line_of_isSingleLine hsingle] at hr
      exact .inr hr
  · rintro (hempty | hr)
    · exact ⟨Selection.isSingleLine_of_isEmpty hempty, .inl hempty⟩
    · have hle : 1 ≤ b.view.maxColumn s.head.line := Nat.le_add_left 1 _
      have hstart : s.range.start = ⟨s.head.line, 1⟩ := by rw [hr, Range.start_onLine hle]
      have hstop : s.range.stop = ⟨s.head.line, b.view.maxColumn s.head.line⟩ := by
        rw [hr, Range.stop_onLine hle]
      have hsingle : s.isSingleLine = true := by
        rw [← Selection.isSingleLine_range, Range.isSingleLine, hstart, hstop, beq_self_eq_true]
      rw [hstart, hstop]
      exact ⟨hsingle, .inr ⟨rfl, rfl⟩⟩

/-- A text of whole lines put in at the start of a line goes above it. -/
theorem exists_apply_above {above below new : List Line} {l : Line} {t : Text}
    (h : b.lines = above ++ l :: below) (hb : NoBareReturn b.text)
    (ht : t.getLast? = some '\n') (hlines : Text.lines t = new ++ [⟨[], []⟩]) (hne : new ≠ []) :
    ∃ b' : Buffer, b'.lines = above ++ (new ++ l :: below) ∧
      b.apply (.type (.point ⟨above.length + 1, 1⟩) t) =
        .ok (b', .caret ⟨above.length + 1 + new.length, 1⟩) := by
  obtain ⟨content, e⟩ := l
  have hstart : b.lines = above ++ ⟨[] ++ content, e⟩ :: below := h
  have hbetween := between_of_lines hstart
  obtain ⟨hbefore, -, -⟩ := hbetween.cut.noBareReturn hb
  have hcut : IsLines (above ++ ⟨[] ++ content, e⟩ :: below) := hstart ▸ b.isLines
  obtain ⟨habove, hrest, -⟩ := hcut.split
  have hnew : IsLines (new ++ [⟨[], []⟩]) := hlines ▸ isLines_lines t
  have htext : t = (new ++ [Line.mk [] []]).flatMap Line.toText := by rw [← hlines, flatten_lines]
  have hread : (⟨above.length + 1, 1⟩ : Position).traverse t =
      ⟨above.length + 1 + new.length, 1⟩ := by
    rw [htext]
    exact hnew.traverse _
  have hend : ¬Fuses ((above ++ [Line.mk [] []]).flatMap Line.toText ++ t)
      ((⟨content, e⟩ :: below).flatMap Line.toText) := by
    rintro ⟨hlast, -⟩
    rw [List.getLast?_append, ht, Option.some_or] at hlast
    exact absurd hlast (by decide)
  rw [← hread]
  refine ⟨_, ?_, hbetween.cut.apply_replace t .followText⟩
  obtain ⟨⟨first, e'⟩, mid, rfl⟩ := List.exists_cons_of_ne_nil hne
  rw [Buffer.lines, lines_insert (lines_flatMap habove) hlines (lines_flatMap hrest)
    (hbefore.not_fuses t) hend]
  simp

end Buffer

namespace Session

variable {s : Session}

/-- What is pasted goes in as lines of its own : it was copied as a whole line, its one line
feed is at its end, and a caret or exactly a line is selected. -/
def PastesLine (s : Session) (t : Text) (wholeLine : Bool) : Prop :=
  wholeLine = true ∧ (t.getLast? = some '\n' ∧ '\n' ∉ t.dropLast) ∧ s.buffer.SelectsLine s.cursor

theorem pastesLine_iff (s : Session) (t : Text) (wholeLine : Bool) :
    (wholeLine && Text.isOneLine t && s.context.isCaretOrLine s.cursor.range) = true ↔
      s.PastesLine t wholeLine := by
  rw [Bool.and_eq_true, Bool.and_eq_true, Text.isOneLine_iff, Buffer.isCaretOrLine_iff rfl,
    and_assoc]
  rfl

theorem command?_paste_of_pastesLine {t : Text} {wholeLine : Bool} (h : s.PastesLine t wholeLine) :
    ((EditStep.paste t wholeLine).outcome s.context s.cursor).command? =
      some (.type (.point ⟨s.cursor.head.line, 1⟩) t) := by
  rw [EditStep.outcome, Context.paste]
  simp only [if_pos ((pastesLine_iff s t wholeLine).mpr h), Range.onLine, Range.ofEnds_self]
  rfl

theorem command?_paste_of_not {t : Text} {wholeLine : Bool} (h : ¬s.PastesLine t wholeLine) :
    ((EditStep.paste t wholeLine).outcome s.context s.cursor).command? =
      some (.type s.cursor.range t) := by
  rw [EditStep.outcome, Context.paste]
  simp only [if_neg (mt (pastesLine_iff s t wholeLine).mp h)]
  rfl

/-- A whole line that is pasted over a caret or exactly a line goes above that line, and the
caret to its start. All other pastes do what typing the text does. -/
theorem paste_above (hs : s.Safe) (t : Text) (wholeLine : Bool) :
    (s.PastesLine t wholeLine → ∃ new, lines t = new ++ [⟨[], []⟩] ∧
        (s.step (.edit (.paste t wholeLine))).2.refused? = none ∧
        s.buffer.InsertsLines (s.step (.edit (.paste t wholeLine))).1.buffer
          (s.cursor.head.line - 1) (new.map Line.content) ∧
        (s.step (.edit (.paste t wholeLine))).1.cursor =
          .caret ⟨s.cursor.head.line + new.length, 1⟩) ∧
      (¬s.PastesLine t wholeLine →
        s.SameAfter [.edit (.paste t wholeLine)] [.edit (.typePlain t)]) := by
  constructor
  · intro h
    obtain ⟨new, hnew, hne⟩ := Text.exists_lines_of_getLast? h.2.1.1
    obtain ⟨above, lead, tail, e, below, hlines, hhead⟩ := hs.head.exists_lines
    obtain ⟨b', hlines', happly⟩ :=
      Buffer.exists_apply_above hlines hs.noBareReturn h.2.1.1 hnew hne
    have hcommand := command?_paste_of_pastesLine h
    rw [hhead] at hcommand ⊢
    have hstep : s.step (.edit (.paste t wholeLine)) = _ := run_of_ok hcommand happly
    rw [hstep]
    have hcontents : b'.contents = above.map Line.content ++
        (new.map Line.content ++ (Line.mk (lead ++ tail) e :: below).map Line.content) := by
      simp [Buffer.contents, hlines']
    exact ⟨new, hnew, rfl, Buffer.insertsLines_of_lines hlines hcontents, rfl⟩
  · intro h
    obtain ⟨before, covered, after, hcut⟩ := Buffer.exists_cut hs.covers
    have e := editsTo_typePlain hcut t
    have hpaste : s.EditsTo (.paste t wholeLine) _ _ := editsTo_of_applies
      ⟨_, command?_paste_of_not h, hcut.apply_replace t .followText⟩
    exact ⟨⟨hpaste.unrefused, trivial⟩, ⟨e.unrefused, trivial⟩, hpaste.text.trans e.text.symm,
      hpaste.cursor.trans e.cursor.symm⟩

/-- Over the second line, selected from its end to its start, a text that a vertical tab makes
two lines. -/
theorem paste_above_verticalTab :
    let s : Session := ⟨.standard, BracketRules.standard.toRules,
      .ofText ['a', '\u2028', 'b', 'c', '\r', '\n', 'd'], ⟨⟨2, 3⟩, ⟨2, 1⟩⟩, 0⟩
    let t : Text := ['x', '\x0b', 'y', '\r', '\n']
    (∃ new, lines t = new ++ [⟨[], []⟩] ∧
      (s.step (.edit (.paste t true))).2.refused? = none ∧
        s.buffer.InsertsLines (s.step (.edit (.paste t true))).1.buffer (2 - 1)
            (new.map Line.content) ∧
          (s.step (.edit (.paste t true))).1.cursor = .caret ⟨2 + new.length, 1⟩) ∧
      s.SameAfter [.edit (.paste t false)] [.edit (.typePlain t)] := by
  intro s t
  have hs : s.Safe := ⟨by decide, by decide, by decide⟩
  have hpastes : s.PastesLine t true := ⟨rfl, by decide, .inr (by decide)⟩
  have hnot : ¬s.PastesLine t false := fun h => Bool.false_ne_true h.1
  exact ⟨(paste_above hs t true).1 hpastes, (paste_above hs t false).2 hnot⟩

end Session

end Keystroke
