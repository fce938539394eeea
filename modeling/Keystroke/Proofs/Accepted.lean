import Keystroke.Proofs.ShiftedLines

/-!
# Operations on a safe buffer

Every operation computes its range and the place of its caret in its own way. In a tame
context and with a selection inside the buffer, the range is inside the buffer and the
text put in has no bare carriage return, so the buffer accepts the command. One operation
is an exception : joining lines under a selection on one line leaves the selection as it
is, whatever becomes of the line.
-/

namespace Keystroke

open Text

namespace Outcome

variable {b : Buffer}

/-- The buffer accepts the command of the outcome, if there is one. -/
def AcceptedBy (o : Outcome) (b : Buffer) : Prop :=
  ∀ c, o.command? = some c → b.Accepts c

/-- An outcome of one command is accepted with the command. -/
theorem acceptedBy_ofCommand {c : Command} (h : b.Accepts c) : (ofCommand c).AcceptedBy b := by
  rintro _ ⟨⟩
  exact h

/-- Nothing to do is always accepted. -/
theorem acceptedBy_noop : noop.AcceptedBy b := by
  rintro _ ⟨⟩

/-- The buffer accepts the outcome, if there is one. -/
def AllAcceptedBy (o? : Option Outcome) (b : Buffer) : Prop :=
  ∀ o, o? = some o → o.AcceptedBy b

theorem allAcceptedBy_none : AllAcceptedBy none b := by
  rintro _ ⟨⟩

theorem allAcceptedBy_some {o : Outcome} (h : o.AcceptedBy b) : AllAcceptedBy (some o) b := by
  rintro _ ⟨⟩
  exact h

/-- A reading under a condition may use the condition. -/
theorem allAcceptedBy_ite {o : Outcome} {p : Prop} [Decidable p] (h : p → o.AcceptedBy b) :
    AllAcceptedBy (if p then some o else none) b := by
  split
  · rename_i hp
    exact allAcceptedBy_some (h hp)
  · exact allAcceptedBy_none

/-- What is left of an accepted outcome, if there is anything to do. -/
theorem AcceptedBy.toOption {o : Outcome} (h : o.AcceptedBy b) : AllAcceptedBy o.toOption b := by
  unfold Outcome.toOption
  split
  · exact allAcceptedBy_none
  · exact allAcceptedBy_some h

/-- Readings tried in turn. -/
theorem AllAcceptedBy.orElse {o? o'? : Option Outcome} (h : AllAcceptedBy o? b)
    (h' : AllAcceptedBy o'? b) : AllAcceptedBy (o? <|> o'?) b := by
  cases o? with
  | none => exact h'
  | some o => exact h

/-- Readings with an outcome to fall back to. -/
theorem AllAcceptedBy.getD {o? : Option Outcome} {o : Outcome} (h : AllAcceptedBy o? b)
    (h' : o.AcceptedBy b) : (o?.getD o).AcceptedBy b := by
  cases o? with
  | none => exact h'
  | some o => exact h o rfl

end Outcome

open Outcome

namespace Buffer

variable {b : Buffer}

/-- A replacement is accepted wherever it leaves the caret, in front of the text or behind. -/
theorem accepts_typeKeeping {keep : Bool} {r : Range} {t : Text} (hb : NoBareReturn b.text)
    (hr : b.Covers r) (ht : NoBareReturn t) : b.Accepts (.typeKeeping keep r t) := by
  unfold Command.typeKeeping
  split
  · exact accepts_typeBehind hb hr ht
  · exact accepts_type hb hr ht

end Buffer

open Buffer

/-! ## Insertion -/

section

variable {b : Buffer} {s : Selection} (hs : b.Safe s)

include hs

theorem acceptedBy_typePlain {t : Text} (ht : NoBareReturn t) :
    (Outcome.typePlain s t).AcceptedBy b :=
  acceptedBy_ofCommand (accepts_type hs.noBareReturn hs.covers ht)

/-- The range in front of the caret is on its line, however many characters are asked for. -/
theorem acceptedBy_replacePrevious {t : Text} (ht : NoBareReturn t) (count : Nat) :
    (Outcome.replacePrevious s t count).AcceptedBy b := by
  have hcol : 1 ≤ s.head.column := hs.head.2.2.1
  refine acceptedBy_ofCommand (accepts_type hs.noBareReturn ?_ ht)
  exact covers_onLine hs.head (Nat.le_max_right _ _) (by omega)

end

namespace Context

variable {ctx : Context} {b : Buffer} {s : Selection}

/-- A paste replaces the selection or goes to the start of the line of the head. -/
theorem acceptedBy_paste (hs : b.Safe s) {t : Text} (ht : NoBareReturn t) (wholeLine : Bool) :
    (ctx.paste s t wholeLine).AcceptedBy b := by
  refine acceptedBy_ofCommand (accepts_type hs.noBareReturn ?_ ht)
  split
  · exact covers_onLine hs.head.lineStart (Nat.le_refl _) (Nat.le_refl _)
  · exact hs.covers

/-! ## Line breaks -/

/-- The view of a buffer has lines without breaks. -/
theorem unbroken_lineContent (hv : ctx.view = b.view) (line : Nat) :
    Unbroken (ctx.view.lineContent line) := by
  rw [hv]
  exact Buffer.unbroken_lineContent line

section

variable (ht : ctx.Tame) (hb : NoBareReturn b.text) {r : Range} (hr : b.Covers r)

include hb hr in
/-- A line break is accepted in each of its forms. The caret of a break in two lines counts back
over the last one, which is unbroken. -/
theorem accepts_breakCommand {a : EnterAnswer} (ha : Unbroken a.indentation ∧ Unbroken a.append)
    (keep : Bool) : b.Accepts (ctx.breakCommand keep r a) := by
  obtain ⟨hi, happend⟩ := ha
  have happended := EnterAnswer.unbroken_appended happend
  have hnormal := ctx.config.style.unbroken_normalize hi
  have hdeeper := ctx.config.style.unbroken_normalize (unbroken_append.mpr ⟨hi, happended⟩)
  have houter := ctx.config.style.unbroken_normalize
    (unbroken_append.mpr ⟨unbroken_outdentAsTabs a.indentation ctx.config.tabSize, happended⟩)
  unfold breakCommand
  cases a.action with
  | keep => exact accepts_typeKeeping hb hr hdeeper.noBareReturn_lineFeed
  | indent => exact accepts_typeKeeping hb hr hdeeper.noBareReturn_lineFeed
  | outdent => exact accepts_typeKeeping hb hr houter.noBareReturn_lineFeed
  | indentOutdent =>
    simp only
    split
    · exact accepts_typeBehind hb hr
        (hdeeper.noBareReturn_lineFeed.append hnormal.noBareReturn_lineFeed)
    · exact accepts_threeLines hb hr hdeeper hnormal

include ht hb hr in
/-- A line break as the rules answer it, if they do. -/
theorem acceptedBy_enter (keep : Bool) : (ctx.enter keep r).AcceptedBy b := by
  unfold enter
  split
  · rename_i a ha
    exact acceptedBy_ofCommand (accepts_breakCommand hb hr (ht.enter _ _ _ ha) keep)
  · exact acceptedBy_noop

include ht hb hr in
/-- Where the rules have no answer, a bare line feed goes in. -/
theorem acceptedBy_breakLine (keep : Bool) : (ctx.breakLine keep r).AcceptedBy b := by
  refine (acceptedBy_enter ht hb hr keep).toOption.getD ?_
  exact acceptedBy_ofCommand (accepts_typeKeeping hb hr (by decide))

end

/-! ## Typed characters -/

section

variable (ht : ctx.Tame) (hs : b.Safe s)

include hs in
/-- Stepping over a closer replaces it, which is there on the line. -/
theorem allAcceptedBy_overtype? (hv : ctx.view = b.view) {c : Char} (hc : NoBareReturn [c]) :
    AllAcceptedBy (ctx.overtype? s c) b := by
  refine allAcceptedBy_ite fun h => ?_
  simp only [Bool.and_eq_true, beq_iff_eq] at h
  have hafter : (b.lineContent s.head.line)[s.head.column - 1]? = some c := by
    rw [← h.2, charAfter?, hv, view_lineContent]
  obtain ⟨hlt, -⟩ := List.getElem?_eq_some_iff.mp hafter
  obtain ⟨hpos, hcount, hcolumn, -⟩ := hs.head
  have hnext : b.Valid ⟨s.head.line, s.head.column + 1⟩ := by
    refine ⟨hpos, hcount, Nat.le_add_left _ _, ?_⟩
    simp only
    omega
  refine acceptedBy_ofCommand (accepts_type hs.noBareReturn ?_ hc)
  exact covers_ofEnds hs.head (hnext.offset_column (by simp))

include ht hs in
/-- A pair goes in and the caret counts back over the closer, one unbroken character. -/
theorem allAcceptedBy_closePair? (c : Char) : AllAcceptedBy (ctx.closePair? s c) b := by
  unfold closePair?
  split
  · split
    · rename_i closer hcloser
      refine allAcceptedBy_ite fun _ => acceptedBy_ofCommand ?_
      obtain ⟨hc, hcl⟩ := ht.pairs c closer (.inl hcloser)
      have hpair : Unbroken [c, closer] := by simp [hc, hcl]
      exact accepts_replace_back hs.noBareReturn hs.covers hpair.noBareReturn 1
    · exact allAcceptedBy_none
  · exact allAcceptedBy_none

include ht hs in
/-- A pair goes around the selection, both of its characters unbroken. -/
theorem allAcceptedBy_wrap? (c : Char) : AllAcceptedBy (ctx.wrap? s c) b := by
  unfold wrap?
  split
  · split
    · rename_i closer hcloser
      refine allAcceptedBy_ite fun _ => acceptedBy_ofCommand ?_
      obtain ⟨hc, hcl⟩ := ht.pairs c closer (.inr hcloser)
      exact accepts_surround hs hc hcl
    · exact allAcceptedBy_none
  · exact allAcceptedBy_none

include hs in
/-- An alignment replaces its line up to the caret by unbroken text. -/
theorem allAcceptedBy_align? (hv : ctx.view = b.view) {c : Char} (hc : NoBareReturn [c])
    (opener : Char) : AllAcceptedBy (ctx.align? s.head opener c) b := by
  unfold align?
  split
  · simp only
    split
    · exact allAcceptedBy_none
    · refine allAcceptedBy_some (acceptedBy_ofCommand (accepts_type hs.noBareReturn ?_ ?_))
      · exact covers_onLine hs.head (Nat.le_refl _) hs.head.2.2.1
      · refine NoBareReturn.append (Unbroken.noBareReturn (unbroken_append.mpr ⟨?_, ?_⟩)) hc
        · exact ctx.config.style.unbroken_normalize (unbroken_leadingIndent _)
        · exact (unbroken_lineContent hv _).slice _ _
  · exact allAcceptedBy_none

include ht hs in
/-- An electric character completes its line by what the rules answer, or aligns it. -/
theorem allAcceptedBy_electric? (hv : ctx.view = b.view) {c : Char} (hc : NoBareReturn [c]) :
    AllAcceptedBy (ctx.electric? s c) b := by
  unfold electric?
  split
  · split
    · rename_i append alignWith? h
      have happend : NoBareReturn append := by
        unfold electricAction? at h
        split at h
        · rename_i a ha
          rw [h] at ha
          exact ht.electric _ _ _ _ _ ha rfl
        · cases h
      exact allAcceptedBy_some (acceptedBy_ofCommand
        (accepts_replace_back hs.noBareReturn hs.covers (hc.append happend) _))
    · exact allAcceptedBy_align? hs hv hc _
    · exact allAcceptedBy_none
  · exact allAcceptedBy_none

include ht hs in
/-- A typed text, in whatever way it is read. -/
theorem acceptedBy_type (hv : ctx.view = b.view) {t : Text} (hnb : NoBareReturn t) :
    (ctx.type s t).AcceptedBy b := by
  unfold type
  split
  · rename_i c
    refine AllAcceptedBy.getD ?_ (acceptedBy_typePlain hs hnb)
    unfold interpret?
    refine .orElse ?_ (.orElse (allAcceptedBy_overtype? hs hv hnb)
      (.orElse (allAcceptedBy_closePair? ht hs c)
        (.orElse (allAcceptedBy_wrap? ht hs c) (allAcceptedBy_electric? ht hs hv hnb))))
    unfold typeBreak?
    split
    · exact (acceptedBy_enter ht hs.noBareReturn hs.covers false).toOption
    · exact allAcceptedBy_none
  · exact acceptedBy_typePlain hs hnb

/-! ## Tab, indenting and outdenting -/

include hs in
/-- A shift edits whole runs of indentation, one to a line. -/
theorem acceptedBy_shift (hv : ctx.view = b.view) (d : ShiftDirection) :
    (ctx.shift d s).AcceptedBy b := by
  unfold shift
  rw [hv]
  exact acceptedBy_ofCommand (accepts_shift hs ctx.config.style.unbroken_oneIndent)

include hs in
theorem acceptedBy_jump : (ctx.jump s).AcceptedBy b :=
  acceptedBy_ofCommand
    (accepts_type hs.noBareReturn hs.covers (unbroken_jumpText _).noBareReturn)

include ht hs in
/-- Tab goes one of three ways : indentation for a blank line, a jump, a shift. -/
theorem acceptedBy_tab (hv : ctx.view = b.view) : (ctx.tab s).AcceptedBy b := by
  unfold tab
  split
  · simp only
    split
    · rename_i good hgood
      have hline : b.Valid (b.view.lineEnd s.start.line) :=
        valid_lineEnd hs.covers.1.1 hs.covers.1.2.1
      have hu : Unbroken good := by
        rw [← eq_of_reindent? hgood]
        exact ctx.config.style.unbroken_normalize (unbroken_goodIndent ht.enter _)
      refine acceptedBy_ofCommand (accepts_type hs.noBareReturn ?_ hu.noBareReturn)
      rw [hv]
      exact covers_onLine hline (Nat.le_refl _) (Nat.le_add_left _ _)
    · exact acceptedBy_jump hs
  · split
    · exact acceptedBy_jump hs
    · exact acceptedBy_shift hs hv _

/-! ## Whole lines -/

include ht hs in
/-- A line above goes in at the end of the line before, or at the start of the first line. -/
theorem acceptedBy_openAbove (hv : ctx.view = b.view) : (ctx.openAbove s).AcceptedBy b := by
  have hpos := hs.head.1
  have hcount := hs.head.2.1
  unfold openAbove
  split
  · rename_i hline
    have hstart : b.Valid ⟨1, 1⟩ := hline ▸ hs.head.lineStart
    exact acceptedBy_ofCommand (accepts_typeBehind hs.noBareReturn
      (covers_onLine hstart (Nat.le_refl _) (Nat.le_refl _)) (by decide))
  · rw [hv]
    exact acceptedBy_breakLine ht hs.noBareReturn
      (covers_point (valid_lineEnd (by omega) (by omega))) false

include ht hs in
theorem acceptedBy_openBelow (hv : ctx.view = b.view) : (ctx.openBelow s).AcceptedBy b := by
  unfold openBelow
  rw [hv]
  exact acceptedBy_breakLine ht hs.noBareReturn
    (covers_point (valid_lineEnd hs.head.1 hs.head.2.1)) false

/-- Joined lines are unbroken, being put together from contents of lines and spaces. -/
theorem unbroken_joined (hv : ctx.view = b.view) (r : Range) : Unbroken (ctx.joined r).text := by
  refine Joined.unbroken_foldl (unbroken_lineContent hv _) fun line hline => ?_
  obtain ⟨n, -, rfl⟩ := List.mem_map.mp hline
  exact unbroken_lineContent hv n

/-- A join replaces whole lines that are there. -/
theorem covers_joinRange (hv : ctx.view = b.view) {r : Range} (hr : b.Covers r) :
    b.Covers (ctx.joinRange r) := by
  have hpos := hr.1.1
  have hcount := hr.1.2.1
  unfold joinRange
  refine covers_ofEnds hr.1.lineStart ?_
  rw [hv]
  refine valid_lineEnd ?_ ?_ <;> unfold joinEnd
  · split
    · rw [hv, view_lineCount]
      omega
    · exact hr.2.1
  · split
    · exact hv ▸ Nat.min_le_right _ _
    · exact hr.2.2.1

include hs in
/-- A join is accepted for a caret and for a selection of several lines. A selection within a
line is left where it was, which may be past the end of the joined line. -/
theorem acceptedBy_joinLines (hv : ctx.view = b.view)
    (hsel : s.isEmpty = true ∨ s.isSingleLine = false) : (ctx.joinLines s).AcceptedBy b := by
  have hr := covers_joinRange hv hs.covers
  have ht := (unbroken_joined hv s.range).noBareReturn
  unfold joinLines
  simp only
  split
  · exact acceptedBy_noop
  · refine acceptedBy_ofCommand ?_
    unfold joinPlacement
    split
    · exact accepts_replace_back hs.noBareReturn hr ht _
    · rename_i hempty
      rw [if_neg (by simp [hsel.resolve_left hempty])]
      exact accepts_replace_back hs.noBareReturn hr ht _

end

end Context

end Keystroke
