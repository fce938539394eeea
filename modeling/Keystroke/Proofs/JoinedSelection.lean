import Keystroke.Proofs.JoinedLines
import Keystroke.Proofs.Surround

/-!
# Joining at a selection within a line

A join at a selection within one line appends the next line to it and leaves the selection
where it is (`Context.exists_apply_joinLines`). The line stays up to its last character that
is no space or tab, so a selection up to there covers the same text as before. The spaces and
tabs behind that count for one character once a line with content is appended. If more of
them are selected than that line makes up for, the selection ends outside the buffer
(`Context.applies_joinLines_selection`).
-/

namespace Keystroke

open Text Position

/-- A place in a line is still in it with another line appended if that has no content. If it
has some, the spaces and tabs at the end of the first count for one character. -/
theorem Text.le_length_appendLine_iff {t : Text} {n : Nat} (hn : n ≤ t.length) (line : Text) :
    n ≤ (appendLine t line).length ↔
      line.content = [] ∨ n ≤ t.trimEndIndent.length + line.content.length + 1 := by
  unfold appendLine
  split
  · rename_i hnil
    exact iff_of_true hn (.inl hnil)
  · rename_i hnil
    simp only [List.length_append, hnil, false_or]
    cases hend : t.endsInIndent with
    | true =>
      have hseparator : separator t line.content = [' '] := by simp [separator, hend]
      rw [hseparator, List.length_singleton]
      omega
    | false =>
      rw [trimEndIndent_of_endsInIndent hend]
      omega

/-! ## Ranges within a line -/

namespace Buffer

variable {b : Buffer} {above below : List Line} {t tail e : Text} {s : Selection}
  {first last : Nat}

theorem covers_range_iff : b.Covers s.range ↔ b.Valid s.anchor ∧ b.Valid s.head := by
  constructor
  · intro h
    have hvalid := h.valid_ofRange s.direction
    rwa [Selection.ofRange_range_direction] at hvalid
  · rintro ⟨hanchor, hhead⟩
    exact covers_ofEnds hanchor hhead

/-- A selection within a line is between two places in the line. -/
theorem Safe.exists_onLine (h : b.Safe s) (hne : s.isEmpty = false)
    (hsingle : s.isSingleLine = true) :
    ∃ above t e below first last, b.lines = above ++ ⟨t, e⟩ :: below ∧
      first < last ∧ last ≤ t.length ∧
        s.range = .onLine (above.length + 1) (first + 1) (last + 1) := by
  have hrange : s.range.isSingleLine = true := by rwa [Selection.isSingleLine_range]
  obtain ⟨above, lead, covered, tail, e, below, hlines, hr⟩ := h.covers.exists_ofPart hrange
  have hlt := Selection.start_lt_stop_iff.mpr hne
  rw [hr, Range.start_ofPart, Range.stop_ofPart, lt_def] at hlt
  simp only at hlt
  have hlast : (lead ++ covered).length ≤ (lead ++ covered ++ tail).length := by simp
  exact ⟨above, _, e, below, lead.length, _, hlines, by omega, hlast, hr⟩

theorem covers_onLine_iff (h : b.lines = above ++ ⟨t, e⟩ :: below) (hle : first ≤ last) :
    b.Covers (.onLine (above.length + 1) (first + 1) (last + 1)) ↔ last ≤ t.length := by
  have hlt : above.length < b.lines.length := by simp [h]
  have hcontent : b.lines[above.length].content = t := by simp [h]
  rw [Covers, Range.start_onLine (by omega), Range.stop_onLine (by omega), valid_succ_iff hlt,
    valid_succ_iff hlt, hcontent]
  omega

/-- What a range covers in the first part of a line does not depend on the rest. -/
theorem textIn?_onLine (h : b.lines = above ++ ⟨t ++ tail, e⟩ :: below) (hle : first ≤ last)
    (hlast : last ≤ t.length) :
    b.textIn? (.onLine (above.length + 1) (first + 1) (last + 1)) = .ok (t.slice first last) := by
  have htake : t.take first ++ t.slice first last = t.take last :=
    Splice.take_append_slice t hle
  have hlines : b.lines =
      above ++ ⟨t.take first ++ t.slice first last ++ (t.drop last ++ tail), e⟩ :: below := by
    rw [htake, ← List.append_assoc, List.take_append_drop, h]
  have hrange : Range.ofPart above (t.take first) (t.slice first last) =
      .onLine (above.length + 1) (first + 1) (last + 1) := by
    rw [Range.ofPart, htake, List.length_take_of_le hlast,
      List.length_take_of_le (hle.trans hlast)]
  rw [← hrange]
  exact (cut_ofPart hlines).textIn?

end Buffer

/-! ## The join -/

namespace Context

variable {ctx : Context} {b : Buffer} {s : Selection} {above rest below : List Line}
  {first last : Line}

section

variable (hv : ctx.view = b.view) (hsingle : s.range.isSingleLine = true)
  (hline : s.range.start.line = above.length + 1)

include hv hsingle hline

/-- Within a line that is not the last, a join takes in the line and the next one. -/
theorem joinsLines_of_isSingleLine (hlines : b.lines = above ++ first :: last :: below) :
    ctx.JoinsLines b s.range above first [] last below := by
  refine ⟨hlines, hline, ?_⟩
  have hcount : b.lineCount = above.length + (last :: below).length + 1 :=
    Buffer.lineCount_of_lines hlines
  have hview : ctx.view.lineCount = b.lineCount := by rw [hv, Buffer.view_lineCount]
  rw [joinEnd, if_pos hsingle, hline, hview, hcount, List.length_cons, List.length_nil]
  omega

/-- A join at the last line takes in that line only. -/
theorem joinRange_last (hlines : b.lines = above ++ [first]) :
    ctx.joinRange s.range = .ofLines above [] first ∧ ctx.joined s.range = ⟨first.content, 0⟩ := by
  have hcontent : ctx.view.lineContent (above.length + 1) = first.content := by
    rw [hv, Buffer.view_lineContent]
    exact Buffer.lineContent_of_lines hlines
  have hend : ctx.joinEnd s.range = above.length + 1 := by
    have hcount : ctx.view.lineCount = above.length + 1 := by
      rw [hv, Buffer.view_lineCount, Buffer.lineCount_of_lines hlines]
      rfl
    rw [joinEnd, if_pos hsingle, hline, hcount]
    omega
  constructor
  · rw [joinRange, hend, hline, View.lineEnd, View.maxColumn, View.lineLength, hcontent]
    rfl
  · rw [joined, hend, hline, hcontent]
    simp [linesBetween, Joined.ofLines]

/-- The last line is replaced by itself. -/
theorem applies_joinLines_last (hlines : b.lines = above ++ [first]) (hne : first.content ≠ []) :
    (ctx.joinLines s).Applies b { b with tokens := [] }
      ((ctx.joinPlacement s).cursorAfter ⟨.ofLines above [] first, first.content⟩) := by
  obtain ⟨hrange, hjoined⟩ := joinRange_last hv hsingle hline hlines
  have hempty : ¬(ctx.joinRange s.range).isEmpty = true := by
    rw [hrange, Range.isEmpty, Range.start_ofLines, Range.stop_ofLines]
    simpa using hne
  have hblock : b.lines = above ++ ([] ++ first :: []) := hlines
  refine ⟨_, ?_, (Buffer.cut_ofLines hblock).apply_replace_covered (ctx.joinPlacement s)⟩
  rw [joinLines, if_neg hempty, hrange, hjoined]
  rfl

end

/-- The next line is appended to the line of the selection, or nothing to the last line, and
the selection stays. -/
theorem exists_apply_joinLines (hv : ctx.view = b.view) (hb : NoBareReturn b.text)
    (hlines : b.lines = above ++ first :: rest) (hline : s.range.start.line = above.length + 1)
    (hcontent : first.content ≠ []) (hne : s.isEmpty = false) (hsingle : s.isSingleLine = true) :
    ∃ e below, ∃ b' : Buffer, (ctx.joinLines s).Applies b b' s ∧
      b'.lines = above ++
        ⟨appendLine first.content (b.lineContent (above.length + 2)), e⟩ :: below := by
  have hrange : s.range.isSingleLine = true := by rwa [Selection.isSingleLine_range]
  have hplacement : ctx.joinPlacement s = .preserve s := by
    rw [joinPlacement, hne, hsingle]
    rfl
  cases rest with
  | nil =>
    have hnext : b.lineContent (above.length + 2) = [] :=
      contentIn_of_lt (by rw [hlines, List.length_append, List.length_singleton]; omega)
    have happlies := applies_joinLines_last hv hrange hline hlines hcontent
    have hsame : ({ b with tokens := [] } : Buffer).lines = b.lines := rfl
    rw [hplacement] at happlies
    refine ⟨first.terminator, [], _, happlies, ?_⟩
    rw [hsame, hlines, hnext]
    rfl
  | cons last below =>
    have hnext : b.lineContent (above.length + 2) = last.content := by
      have hsecond : b.lines = (above ++ [first]) ++ last :: below := by simpa using hlines
      simpa using Buffer.lineContent_of_lines hsecond
    have hj := joinsLines_of_isSingleLine hv hrange hline hlines
    obtain ⟨b', hlines', happlies⟩ := hj.exists_apply hv hb
    rw [hplacement] at happlies
    refine ⟨last.terminator, below, b', happlies, ?_⟩
    rw [hlines', hj.joined_eq hv, hnext, Joined.text_ofLines]
    rfl

/-- A join at a selection within a line leaves the selection as it is. Its ends are inside the
buffer then exactly if nothing is appended to the line, or if it ends no further along than the
line without the spaces and tabs at its end, a space and the next line without its indentation.
Up to the last character of the line that is no space or tab, the selection covers the same
text as before. -/
theorem applies_joinLines_selection (hv : ctx.view = b.view) (hs : b.Safe s)
    (hne : s.isEmpty = false) (hsingle : s.isSingleLine = true) :
    let line := b.lineContent s.range.start.line
    let next := b.lineContent (s.range.start.line + 1)
    ∃ b', (ctx.joinLines s).Applies b b' s ∧
      (b'.Valid s.anchor ∧ b'.Valid s.head ↔ next.content = [] ∨
        s.range.stop.column ≤ line.trimEndIndent.length + next.content.length + 2) ∧
      (s.range.stop.column ≤ line.trimEndIndent.length + 1 →
        b'.Valid s.anchor ∧ b'.Valid s.head ∧ b'.textIn? s.range = b.textIn? s.range) := by
  intro line next
  obtain ⟨above, t, e, below, first, last, hlines, hlt, hlast, hr⟩ := hs.exists_onLine hne hsingle
  have hle : first ≤ last := Nat.le_of_lt hlt
  have hstart : s.range.start = ⟨above.length + 1, first + 1⟩ := by
    rw [hr, Range.start_onLine (by omega)]
  have hstop : s.range.stop = ⟨above.length + 1, last + 1⟩ := by
    rw [hr, Range.stop_onLine (by omega)]
  have hline : line = t := by
    simp only [line, hstart]
    exact Buffer.lineContent_of_lines hlines
  have hcontent : t ≠ [] := List.ne_nil_of_length_pos (by omega)
  obtain ⟨e', below', b', happlies, hlines'⟩ := exists_apply_joinLines hv hs.noBareReturn hlines
    (congrArg Position.line hstart) hcontent hne hsingle
  have hnext : next = b.lineContent (above.length + 2) := by simp only [next, hstart]
  rw [← hnext] at hlines'
  have hvalid : b'.Valid s.anchor ∧ b'.Valid s.head ↔ last ≤ (appendLine t next).length := by
    rw [← Buffer.covers_range_iff, hr, Buffer.covers_onLine_iff hlines' hle]
  have hlength := le_length_appendLine_iff hlast next
  refine ⟨b', happlies, ?_, fun hcolumn => ?_⟩
  · rw [hvalid, hlength, hstop, hline]
    simp only [Nat.add_le_add_iff_right]
  · rw [hstop, hline] at hcolumn
    have htrim : last ≤ t.trimEndIndent.length := by simpa using hcolumn
    obtain ⟨hanchor, hhead⟩ := hvalid.mpr (hlength.mpr (.inr (by omega)))
    obtain ⟨w, -, hw⟩ := exists_trimEndIndent_append t
    obtain ⟨w', hw'⟩ := trimEndIndent_prefix_foldl t [next]
    rw [List.foldl_cons, List.foldl_nil] at hw'
    rw [← hw'] at hlines'
    rw [← hw] at hlines
    refine ⟨hanchor, hhead, ?_⟩
    rw [hr, Buffer.textIn?_onLine hlines' hle htrim, Buffer.textIn?_onLine hlines hle htrim]

/-- Backward over a word and one of the spaces behind it, in front of a closing parenthesis. -/
theorem applies_joinLines_selection_backward :
    let b := Buffer.ofText ['f', '(', 'a', ' ', ' ', '\r', '\n', '\t', ')', '\n']
    let s : Selection := ⟨⟨1, 5⟩, ⟨1, 3⟩⟩
    let ctx : Context := ⟨.standard, b.view, BracketRules.standard.toRules⟩
    let line := b.lineContent s.range.start.line
    let next := b.lineContent (s.range.start.line + 1)
    ∃ b', (ctx.joinLines s).Applies b b' s ∧
      (b'.Valid s.anchor ∧ b'.Valid s.head ↔ next.content = [] ∨
        s.range.stop.column ≤ line.trimEndIndent.length + next.content.length + 2) ∧
      (s.range.stop.column ≤ line.trimEndIndent.length + 1 →
        b'.Valid s.anchor ∧ b'.Valid s.head ∧ b'.textIn? s.range = b.textIn? s.range) := by
  intro b s ctx
  have hs : b.Safe s := ⟨by decide, by decide, by decide⟩
  exact applies_joinLines_selection rfl hs (by decide) (by decide)

/-- With four spaces selected behind a letter, a join leaves the end of the selection outside
the buffer. -/
theorem joinLines_selection_outside :
    let b := Buffer.ofText ['a', ' ', ' ', ' ', ' ', '\n', 'b']
    let s : Selection := ⟨⟨1, 1⟩, ⟨1, 6⟩⟩
    let ctx : Context := ⟨.standard, b.view, BracketRules.standard.toRules⟩
    b.Safe s ∧ s.isEmpty = false ∧ s.isSingleLine = true ∧
      ∃ b', (ctx.joinLines s).Applies b b' s ∧ b'.text = ['a', ' ', 'b'] ∧ ¬b'.Valid s.head := by
  intro b s ctx
  exact ⟨⟨by decide, by decide, by decide⟩, by decide, by decide, _, ⟨_, rfl, rfl⟩, rfl, by decide⟩

end Context

end Keystroke
