import Keystroke.Proofs.JoinedText
import Keystroke.Proofs.LineBlock
import Keystroke.Proofs.Safety
import Keystroke.Proofs.Selection

/-!
# Joining lines

A join puts one line in place of the lines it takes in, with the terminator of the last of
them (`Context.JoinsLines.exists_apply`). The caret goes back over the end of that line :
over what is left of the last line behind a selection, or over what the last line added for
a caret (`Context.applies_joinLines`).

Lines can also be joined one at a time, each join at the caret the last one left. The line
joined so far is read again every time, and appending the next line to it is what a single
join does (`Session.Joining.step`), so a block of lines comes out the same either way
(`Session.joinLines_eq_joins`).
-/

namespace Keystroke

open Text Position

namespace Context

variable {ctx : Context} {b : Buffer} {s : Selection} {r : Range}
  {above between below : List Line} {first last : Line}

/-! ## The lines of a join -/

/-- A join of the range takes in these lines, at least two. -/
structure JoinsLines (ctx : Context) (b : Buffer) (r : Range) (above : List Line) (first : Line)
    (between : List Line) (last : Line) (below : List Line) : Prop where
  lines : b.lines = above ++ first :: (between ++ last :: below)
  start : r.start.line = above.length + 1
  stop : ctx.joinEnd r = above.length + between.length + 2

theorem exists_joinsLines (hv : ctx.view = b.view) (hr : b.Covers r)
    (hlt : r.start.line < ctx.joinEnd r) :
    ∃ above first between last below, ctx.JoinsLines b r above first between last below := by
  have hcount : ctx.joinEnd r ≤ b.lineCount := by
    unfold joinEnd
    split
    · exact hv ▸ Nat.min_le_right _ _
    · exact hr.2.2.1
  obtain ⟨above, first, between, last, below, hlines, hstart, hstop⟩ :=
    Buffer.exists_lines_between hr.1.1 hlt hcount
  exact ⟨above, first, between, last, below, hlines, hstart, hstop⟩

namespace JoinsLines

variable (hj : ctx.JoinsLines b r above first between last below) (hv : ctx.view = b.view)

include hj hv

theorem lineContent_last : ctx.view.lineContent (ctx.joinEnd r) = last.content := by
  have hlines : b.lines =
      (above ++ first :: between) ++ ⟨last.content, last.terminator⟩ :: below := by
    simpa using hj.lines
  have hline : ctx.joinEnd r = (above ++ first :: between).length + 1 := by
    rw [hj.stop, List.length_append, List.length_cons]
    omega
  rw [hv, hline]
  exact Buffer.lineContent_of_lines hlines

theorem joinRange_eq : ctx.joinRange r = .ofLines above (first :: between) last := by
  rw [joinRange, View.lineEnd, View.maxColumn, View.lineLength, hj.lineContent_last hv, hj.start,
    hj.stop]
  rfl

theorem joined_eq :
    ctx.joined r = .ofLines first.content ((between ++ [last]).map Line.content) := by
  have hfirst : ctx.view.lineContent (above.length + 1) = first.content := by
    rw [hv]
    exact Buffer.lineContent_of_lines hj.lines
  have hlines : b.lines = (above ++ [first]) ++ ((between ++ [last]) ++ below) := by
    simpa using hj.lines
  have hrest := Buffer.map_lineContent_linesBetween hlines
  have hstop : (above ++ [first]).length + (between ++ [last]).length = ctx.joinEnd r := by
    rw [hj.stop]
    simp
    omega
  rw [hstop, List.length_append, List.length_singleton] at hrest
  rw [joined, hj.start, hfirst, ← hrest, hv]
  rfl

end JoinsLines

/-- One line takes the place of the lines a join takes in. -/
theorem JoinsLines.exists_apply (hj : ctx.JoinsLines b s.range above first between last below)
    (hv : ctx.view = b.view) (hb : NoBareReturn b.text) :
    ∃ b' : Buffer,
      b'.lines = above ++ ⟨(ctx.joined s.range).text, last.terminator⟩ :: below ∧
        (ctx.joinLines s).Applies b b' ((ctx.joinPlacement s).cursorAfter
          ⟨.ofLines above (first :: between) last, (ctx.joined s.range).text⟩) := by
  have hlines : b.lines = above ++ ((first :: between) ++ last :: below) := hj.lines
  obtain ⟨b', hlines', happly⟩ := Buffer.exists_apply_ofLines hlines hb
    (unbroken_joined hv s.range) (ctx.joinPlacement s)
  have hempty : ¬(ctx.joinRange s.range).isEmpty = true := by
    simp [hj.joinRange_eq hv, Range.isEmpty_ofLines]
  refine ⟨b', hlines', _, ?_, happly⟩
  rw [joinLines, if_neg hempty, hj.joinRange_eq hv]
  rfl

/-! ## The caret after a join -/

theorem charsAfter_eq (ctx : Context) (p : Position) :
    ctx.charsAfter p =
      ((ctx.view.lineContent p.line).drop
        (max (p.column - 1) (ctx.view.lineContent p.line).leadingIndent.length)).length := by
  rw [charsAfter, View.firstContentColumn?, View.lineLength, ← getD_firstContent?,
    List.length_drop]
  cases (ctx.view.lineContent p.line).firstContent? with
  | none =>
    simp only [Option.map_none, Option.getD_none]
    omega
  | some i =>
    simp only [Option.map_some, Option.getD_some]
    omega

theorem joinEnd_of_not_isSingleLine (h : s.isSingleLine = false) :
    ctx.joinEnd s.range = s.range.stop.line := by
  rw [joinEnd, s.isSingleLine_range, h]
  rfl

namespace JoinsLines

variable (hj : ctx.JoinsLines b s.range above first between last below)

include hj

/-- A caret takes in the next line only. -/
theorem between_eq_nil (h : s.isEmpty = true) : between = [] := by
  have hsingle : s.range.isSingleLine = true := by
    rw [Selection.range_of_isEmpty h]
    exact beq_self_eq_true _
  have hstart := hj.start
  have hstop := hj.stop
  rw [joinEnd, hsingle, if_pos rfl] at hstop
  rw [← List.length_eq_zero_iff]
  omega

variable (hv : ctx.view = b.view)

include hv

/-- Behind a selection over several lines, the caret goes back over the rest of the last. -/
theorem exists_caret_of_selection (h : s.isSingleLine = false) :
    ∃ before,
      (ctx.joined s.range).text = before ++ last.content.drop
        (max (s.range.stop.column - 1) last.content.leadingIndent.length) ∧
      (ctx.joinPlacement s).cursorAfter
        ⟨.ofLines above (first :: between) last, (ctx.joined s.range).text⟩ =
          .caret ⟨above.length + 1, before.length + 1⟩ := by
  have hcontent := content_suffix_foldl first.content (between.map Line.content) last.content
  rw [← drop_length_leadingIndent] at hcontent
  have hsuffix : last.content.drop
      (max (s.range.stop.column - 1) last.content.leadingIndent.length) <:+
        (ctx.joined s.range).text := by
    rw [hj.joined_eq hv, Joined.text_ofLines, List.map_append]
    exact (List.drop_suffix_drop_left _ (Nat.le_max_right _ _)).trans hcontent
  have hlast := hj.lineContent_last hv
  rw [joinEnd_of_not_isSingleLine h] at hlast
  have hplacement : ctx.joinPlacement s = .offset 0 (-((last.content.drop
      (max (s.range.stop.column - 1) last.content.leadingIndent.length)).length : Int)) := by
    rw [joinPlacement, Selection.isEmpty_of_isSingleLine h, h, charsAfter_eq, hlast]
    rfl
  obtain ⟨before, htext⟩ := hsuffix
  obtain ⟨hbefore, hafter⟩ := unbroken_append.mp (htext ▸ unbroken_joined hv s.range)
  refine ⟨before, htext.symm, ?_⟩
  rw [hplacement, ← htext]
  exact Placement.cursorAfter_ofLines_back hbefore hafter _ _ _

/-- A caret goes back over what the last line added. -/
theorem exists_caret_of_isEmpty (h : s.isEmpty = true) :
    ∃ before gap,
      (ctx.joined s.range).text = before ++ gap ++ last.content.content ∧
        (gap = [] ∨ gap = [' ']) ∧
      (ctx.joinPlacement s).cursorAfter
        ⟨.ofLines above (first :: between) last, (ctx.joined s.range).text⟩ =
          .caret ⟨above.length + 1, before.length + 1⟩ := by
  obtain rfl := hj.between_eq_nil h
  have hjoined : ctx.joined s.range = .ofLines first.content [last.content] := hj.joined_eq hv
  obtain ⟨before, gap, htext, hgap, hadded⟩ := Joined.exists_lastAdded first.content last.content
  rw [← hjoined] at htext hadded
  have hplacement : ctx.joinPlacement s =
      .offset 0 (-((gap ++ last.content.content).length : Int)) := by
    rw [joinPlacement, if_pos h, hadded]
  have hunbroken := unbroken_joined hv s.range
  rw [htext, List.append_assoc] at hunbroken
  obtain ⟨hbefore, hafter⟩ := unbroken_append.mp hunbroken
  refine ⟨before, gap, htext, hgap, ?_⟩
  rw [hplacement, htext, List.append_assoc]
  exact Placement.cursorAfter_ofLines_back hbefore hafter _ _ _

end JoinsLines

/-- A join of several lines puts one line in their place, with the terminator of the last of
them; all other lines and terminators stay. No more than spaces and tabs is lost in it, and
what is left of them between two lines with content is the separator. Behind a selection
over several lines the caret is in front of the rest of the last one; a caret is between
the two lines it joins. -/
theorem applies_joinLines (hv : ctx.view = b.view) (hs : b.Safe s)
    (hlt : s.range.start.line < ctx.joinEnd s.range) :
    ∃ above first between last below t b' cursor,
      b.lines = above ++ first :: (between ++ last :: below) ∧
        s.range.start.line = above.length + 1 ∧
        ctx.joinEnd s.range = above.length + between.length + 2 ∧
      (ctx.joinLines s).Applies b b' cursor ∧
        b'.lines = above ++ ⟨t, last.terminator⟩ :: below ∧
      t.JoinOf first.content ((between ++ [last]).map Line.content) ∧
      (s.isSingleLine = false → ∃ before,
        t = before ++ last.content.drop
          (max (s.range.stop.column - 1) last.content.leadingIndent.length) ∧
        cursor = .caret ⟨above.length + 1, before.length + 1⟩) ∧
      (s.isEmpty = true → ∃ before gap,
        t = before ++ gap ++ last.content.content ∧ (gap = [] ∨ gap = [' ']) ∧
        cursor = .caret ⟨above.length + 1, before.length + 1⟩) := by
  obtain ⟨above, first, between, last, below, hj⟩ := exists_joinsLines hv hs.covers hlt
  obtain ⟨b', hlines, happlies⟩ := hj.exists_apply hv hs.noBareReturn
  have hjoinOf : (ctx.joined s.range).text.JoinOf first.content
      ((between ++ [last]).map Line.content) := by
    rw [hj.joined_eq hv]
    exact Joined.joinOf_ofLines _ _
  exact ⟨above, first, between, last, below, _, b', _, hj.lines, hj.start, hj.stop, happlies,
    hlines, hjoinOf, hj.exists_caret_of_selection hv, hj.exists_caret_of_isEmpty hv⟩

/-- From inside the indentation of a closing parenthesis, backward over a blank line. -/
theorem applies_joinLines_parenthesis :
    let b := Buffer.ofText ['f', '(', '\t', '\r', '\n', '\n', ' ', ' ', ')', '\n', 'a']
    let s : Selection := ⟨⟨3, 2⟩, ⟨1, 2⟩⟩
    let ctx : Context := ⟨.standard, b.view, BracketRules.standard.toRules⟩
    ∃ above first between last below t b' cursor,
      b.lines = above ++ first :: (between ++ last :: below) ∧
        s.range.start.line = above.length + 1 ∧
        ctx.joinEnd s.range = above.length + between.length + 2 ∧
      (ctx.joinLines s).Applies b b' cursor ∧
        b'.lines = above ++ ⟨t, last.terminator⟩ :: below ∧
      t.JoinOf first.content ((between ++ [last]).map Line.content) ∧
      (s.isSingleLine = false → ∃ before,
        t = before ++ last.content.drop
          (max (s.range.stop.column - 1) last.content.leadingIndent.length) ∧
        cursor = .caret ⟨above.length + 1, before.length + 1⟩) ∧
      (s.isEmpty = true → ∃ before gap,
        t = before ++ gap ++ last.content.content ∧ (gap = [] ∨ gap = [' ']) ∧
        cursor = .caret ⟨above.length + 1, before.length + 1⟩) := by
  intro b s ctx
  have hs : b.Safe s := ⟨by decide, by decide, by decide⟩
  exact applies_joinLines rfl hs (by decide)

end Context

/-! ## Joining line by line -/

/-- A line with the next one joined to it. -/
def Line.join (l next : Line) : Line :=
  ⟨appendLine l.content next.content, next.terminator⟩

theorem Line.foldl_join (l : Line) (between : List Line) (last : Line) :
    (between ++ [last]).foldl join l =
      ⟨(Joined.ofLines l.content ((between ++ [last]).map content)).text, last.terminator⟩ := by
  rw [Joined.text_ofLines]
  induction between generalizing l with
  | nil => rfl
  | cons next between ih => exact ih (l.join next)

namespace Session

variable {s : Session} {above rest below : List Line} {line next : Line}

/-- So many joins, each with the cursor the one before it left. -/
def joins (s : Session) (n : Nat) : Session :=
  s.runAll (List.replicate n (.edit .joinLines))

/-- A line between others, with a caret on it. -/
structure Joining (s : Session) (above : List Line) (line : Line) (below : List Line) :
    Prop where
  safe : s.Safe
  lines : s.buffer.lines = above ++ line :: below
  caret : ∃ column, s.cursor = .caret ⟨above.length + 1, column⟩

theorem Joining.isEmpty (h : s.Joining above line below) : s.cursor.isEmpty = true := by
  obtain ⟨column, hcursor⟩ := h.caret
  rw [hcursor]
  exact Selection.isEmpty_iff.mpr rfl

/-- A join there takes in the line and the next one. -/
theorem Joining.joinsLines (h : s.Joining above line (next :: below)) :
    s.context.JoinsLines s.buffer s.cursor.range above line [] next below := by
  obtain ⟨column, hcursor⟩ := h.caret
  have hrange : s.cursor.range = .point ⟨above.length + 1, column⟩ := by
    rw [hcursor, Selection.range_caret]
  have hcount : s.context.view.lineCount = above.length + (next :: below).length + 1 :=
    Buffer.lineCount_of_lines h.lines
  have hsingle : (Range.point ⟨above.length + 1, column⟩).isSingleLine = true :=
    beq_self_eq_true _
  refine ⟨h.lines, by rw [hrange]; rfl, ?_⟩
  rw [hrange, Context.joinEnd, if_pos hsingle, hcount, List.length_cons]
  exact Nat.min_eq_left (by simp only [Range.point]; omega)

/-- A join at a caret joins the next line to the line of the caret, and the caret stays on
that line. -/
theorem Joining.step (h : s.Joining above line (next :: below)) :
    (s.step (.edit .joinLines)).2.refused? = none ∧
      (s.step (.edit .joinLines)).1.Joining above (line.join next) below := by
  obtain ⟨b', hlines, c, hc, happly⟩ := h.joinsLines.exists_apply rfl h.safe.noBareReturn
  obtain ⟨before, -, -, -, hcaret⟩ := h.joinsLines.exists_caret_of_isEmpty rfl h.isEmpty
  have haccepted : (s.context.joinLines s.cursor).AcceptedBy s.buffer :=
    Context.acceptedBy_joinLines h.safe rfl (.inl h.isEmpty)
  obtain ⟨hunrefused, hsafe⟩ := run_of_acceptedBy h.safe haccepted
  have hstep : s.step (.edit .joinLines) = _ := run_of_ok hc happly
  refine ⟨hunrefused, hsafe, ?_, before.length + 1, ?_⟩
  · rw [hstep, hlines, h.joinsLines.joined_eq rfl, ← Line.foldl_join]
    rfl
  · rw [hstep]
    exact hcaret

/-- As many joins as there are lines in a block join all of them to the line above, and the
caret stays on that line. -/
theorem Joining.joins (h : s.Joining above line (rest ++ below)) :
    s.Unrefused (List.replicate rest.length (.edit .joinLines)) ∧
      (s.joins rest.length).Joining above (rest.foldl Line.join line) below := by
  induction rest generalizing s line with
  | nil => exact ⟨trivial, h⟩
  | cons next rest ih =>
    obtain ⟨hnone, hnext⟩ := h.step
    obtain ⟨hrest, hdone⟩ := ih hnext
    exact ⟨⟨hnone, hrest⟩, hdone⟩

/-- Fewer joins join fewer of the lines. -/
theorem Joining.joins_le (h : s.Joining above line (rest ++ below)) {k : Nat}
    (hk : k ≤ rest.length) :
    (s.joins k).Joining above ((rest.take k).foldl Line.join line) (rest.drop k ++ below) := by
  rw [← List.take_append_drop k rest, List.append_assoc] at h
  have hjoined := h.joins.2
  rwa [List.length_take_of_le hk] at hjoined

/-- A join of a selection over several lines leaves the text that joins at a caret on its
first line leave, one for every line break in it. The caret is on that line after each of
them. -/
theorem joinLines_eq_joins {p : Position} (hs : s.Safe) (hsel : s.cursor.isSingleLine = false)
    (hp : s.buffer.Valid p) (hline : p.line = s.cursor.range.start.line) :
    let n := s.cursor.range.stop.line - s.cursor.range.start.line
    let atCaret := { s with cursor := .caret p }
    (s.step (.edit .joinLines)).2.refused? = none ∧
      atCaret.Unrefused (List.replicate n (.edit .joinLines)) ∧
      (s.step (.edit .joinLines)).1.buffer.text = (atCaret.joins n).buffer.text ∧
      ∀ k ≤ n, ∃ column, (atCaret.joins k).cursor = .caret ⟨p.line, column⟩ ∧
        (atCaret.joins k).buffer.Valid ⟨p.line, column⟩ := by
  intro n atCaret
  have hend : s.context.joinEnd s.cursor.range = s.cursor.range.stop.line :=
    Context.joinEnd_of_not_isSingleLine hsel
  have hlt : s.cursor.range.start.line < s.context.joinEnd s.cursor.range := by
    rw [hend]
    exact Selection.start_line_lt_stop_line hsel
  obtain ⟨above, first, between, last, below, hj⟩ :=
    Context.exists_joinsLines rfl hs.covers hlt
  have hn : n = (between ++ [last]).length := by
    have hstart := hj.start
    have hstop := hend.symm.trans hj.stop
    rw [List.length_append, List.length_singleton]
    omega
  obtain ⟨b', hlines, c, hc, happly⟩ := hj.exists_apply rfl hs.noBareReturn
  have hstep : s.step (.edit .joinLines) = _ := run_of_ok hc happly
  have hcaret : Selection.caret p = .caret ⟨above.length + 1, p.column⟩ := by
    rw [← hj.start, ← hline]
  have hrest : atCaret.buffer.lines = above ++ first :: ((between ++ [last]) ++ below) := by
    simpa using hj.lines
  have hsafe : atCaret.Safe := ⟨hs.noBareReturn, hp, hp⟩
  have hjoining : atCaret.Joining above first ((between ++ [last]) ++ below) :=
    ⟨hsafe, hrest, p.column, hcaret⟩
  obtain ⟨hunrefused, hjoined⟩ := hjoining.joins
  rw [← hn] at hunrefused hjoined
  refine ⟨by rw [hstep], hunrefused, ?_, fun k hk => ?_⟩
  · rw [hstep, ← Buffer.flatMap_lines, ← (atCaret.joins n).buffer.flatMap_lines, hlines,
      hjoined.lines, Line.foldl_join, hj.joined_eq rfl]
  · obtain ⟨hsafe', -, column, hcursor⟩ := hjoining.joins_le (hn ▸ hk)
    have hvalid := hsafe'.head
    rw [hcursor] at hvalid
    rw [hline, hj.start]
    exact ⟨column, hcursor, hvalid⟩

/-- Over a line of white space and one that starts with a closing parenthesis. -/
theorem joinLines_eq_joins_parenthesis :
    let b := Buffer.ofText ['a', ' ', '\r', '\n', '\t', '\n', ' ', ')', '\n', 'b']
    let s : Session := ⟨.standard, BracketRules.standard.toRules, b, ⟨⟨4, 1⟩, ⟨1, 2⟩⟩, 0⟩
    let n := s.cursor.range.stop.line - s.cursor.range.start.line
    let atCaret := { s with cursor := .caret ⟨1, 3⟩ }
    (s.step (.edit .joinLines)).2.refused? = none ∧
      atCaret.Unrefused (List.replicate n (.edit .joinLines)) ∧
      (s.step (.edit .joinLines)).1.buffer.text = (atCaret.joins n).buffer.text ∧
      ∀ k ≤ n, ∃ column, (atCaret.joins k).cursor = .caret ⟨1, column⟩ ∧
        (atCaret.joins k).buffer.Valid ⟨1, column⟩ := by
  intro b s
  have hs : s.Safe := ⟨by decide, by decide, by decide⟩
  have hp : s.buffer.Valid ⟨1, 3⟩ := by decide
  exact joinLines_eq_joins hs (by decide) hp (by decide)

end Session

end Keystroke
