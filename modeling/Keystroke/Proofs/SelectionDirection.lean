import Keystroke.Proofs.LineBreak
import Keystroke.Proofs.Selection
import Keystroke.Rules.Bracket
import Keystroke.Session

/-!
# The direction of a selection

An operation on what is selected replaces the same text whichever end of the selection the
caret is drawn at. Swapping the two ends swaps them in the selection that the command leaves
(`Command.cursorAfter_swap`) and changes nothing else about the outcome
(`EditStep.outcome_swap`), so the same edits are made and the same undo stops are put
(`EditStep.swapOf_outcome`). The operations that go by the caret alone, and not by the range,
are left out.
-/

namespace Keystroke

/-! ## Swapped ends -/

/-- The other way. -/
def Direction.opposite : Direction → Direction
  | forward => backward
  | backward => forward

namespace Selection

variable {s : Selection}

/-- A caret has no direction to turn round. -/
theorem swap_of_isEmpty (h : s.isEmpty = true) : s.swap = s := by
  obtain ⟨anchor, head⟩ := s
  obtain rfl : anchor = head := isEmpty_iff.mp h
  rfl

@[simp] theorem isEmpty_swap (s : Selection) : s.swap.isEmpty = s.isEmpty :=
  BEq.comm

@[simp] theorem isSingleLine_swap (s : Selection) : s.swap.isSingleLine = s.isSingleLine :=
  BEq.comm

/-- The start of the range is the same end either way. -/
@[simp] theorem start_swap (s : Selection) : s.swap.start = s.start := by
  rw [start, start, range_swap]

/-- A range selected the other way round. -/
theorem ofRange_opposite (r : Range) (d : Direction) :
    ofRange r d.opposite = (ofRange r d).swap := by
  cases d <;> rfl

/-- A selection with two ends extends the other way when they are swapped. -/
theorem direction_swap (h : s.isEmpty = false) : s.swap.direction = s.direction.opposite := by
  have hne : s.swap.isEmpty = false := by rwa [isEmpty_swap]
  cases hd : s.direction with
  | forward =>
    have hlt : s.anchor < s.head := anchor_lt_head_iff.mpr ⟨h, hd⟩
    exact direction_eq_backward_iff.mpr hlt
  | backward =>
    have hlt : s.swap.anchor < s.swap.head := head_lt_anchor_iff.mpr ⟨h, hd⟩
    exact (anchor_lt_head_iff.mp hlt).2

end Selection

/-! ## Shifted selections -/

namespace Shift

/-- Each end of a selection is carried along on its own. -/
theorem trackSelection_swap (edits : List TextEdit) (s : Selection) :
    trackSelection edits s.swap = (trackSelection edits s).swap := by
  cases h : s.isEmpty with
  | true =>
    -- both ends go to the same place
    have hends : s.anchor = s.head := Selection.isEmpty_iff.mp h
    rw [Selection.swap_of_isEmpty h]
    simp only [trackSelection, h, hends]
    rfl
  | false =>
    unfold trackSelection
    simp only [Selection.isEmpty_swap, h, Selection.direction_swap h]
    cases s.direction <;> rfl

/-- A shift makes the same edits either way and leaves the selection turned round. -/
theorem ofSelection_swap (v : View) (s : Selection) (o : ShiftOptions) :
    ofSelection v s.swap o =
      ⟨(ofSelection v s o).edits, (ofSelection v s o).cursorAfter.swap⟩ := by
  simp only [ofSelection, Selection.range_swap, Selection.isEmpty_swap, trackSelection_swap]
  congr 1
  split
  · split <;> rfl
  · rfl

end Shift

/-! ## Commands and outcomes -/

/-- The selection to be kept, the other way around. -/
def Placement.swap : Placement → Placement
  | followText => followText
  | keepPosition => keepPosition
  | offset lines columns => offset lines columns
  | preserve s => preserve s.swap

namespace Command

/-- The same edits, with the selection the other way around. -/
def swap : Command → Command
  | replace e place => replace e place.swap
  | surround s opener closer => surround s.swap opener closer
  | shift s => shift ⟨s.edits, s.cursorAfter.swap⟩

/-- Both ends move past the opener, whichever is the head. -/
theorem wrappedSelection_swap (s : Selection) :
    wrappedSelection s.swap = (wrappedSelection s).swap := by
  cases h : s.isEmpty with
  | true =>
    have hpoint : s.range = .point s.head := Selection.range_of_isEmpty h
    have hsingle : (Range.point s.head).isSingleLine = true := beq_self_eq_true _
    rw [Selection.swap_of_isEmpty h, wrappedSelection, hpoint, if_pos hsingle]
    simp only [Range.point, Range.ofEnds_self]
    cases s.direction <;> rfl
  | false =>
    simp only [wrappedSelection, Selection.range_swap, Selection.direction_swap h,
      Selection.ofRange_opposite]

/-- A command replaces the same ranges. -/
theorem edits_swap (c : Command) : c.swap.edits = c.edits := by
  cases c with
  | replace e place => rfl
  | surround s opener closer => simp only [swap, edits, Selection.range_swap]
  | shift s => rfl

/-- It leaves the selection turned round. -/
theorem cursorAfter_swap (c : Command) : c.swap.cursorAfter = c.cursorAfter.swap := by
  cases c with
  | replace e place => cases place <;> rfl
  | surround s opener closer => exact wrappedSelection_swap s
  | shift s => rfl

end Command

namespace Outcome

/-- The same outcome, with the selection of its command the other way around. -/
def swap (o : Outcome) : Outcome :=
  { o with command? := o.command?.map .swap }

/-- The same edits and the same marks, with the selection that is left the other way around.
A caret is the same either way. -/
structure SwapOf (o' o : Outcome) : Prop where
  edits : o'.command?.map Command.edits = o.command?.map Command.edits
  cursorAfter : o'.command?.map Command.cursorAfter = o.command?.map (·.cursorAfter.swap)
  pushesUndoBefore : o'.pushesUndoBefore = o.pushesUndoBefore
  pushesUndoAfter : o'.pushesUndoAfter = o.pushesUndoAfter
  isAutoWhitespace : o'.isAutoWhitespace = o.isAutoWhitespace
  reason : o'.reason = o.reason
  revealsHorizontally : o'.revealsHorizontally = o.revealsHorizontally

/-- An outcome of a turned command differs in the selection alone. -/
theorem swapOf_swap (o : Outcome) : o.swap.SwapOf o := by
  have hsome : o.swap.command?.isSome = o.command?.isSome := Option.isSome_map
  refine ⟨?_, ?_, ?_, ?_, ?_, rfl, ?_⟩
  · rw [swap, Option.map_map]
    exact congrArg (o.command?.map ·) (funext Command.edits_swap)
  · rw [swap, Option.map_map]
    exact congrArg (o.command?.map ·) (funext Command.cursorAfter_swap)
  · rw [pushesUndoBefore, pushesUndoBefore, hsome]
    rfl
  · rw [pushesUndoAfter, pushesUndoAfter, hsome]
    rfl
  · rw [isAutoWhitespace, isAutoWhitespace, hsome]
    rfl
  · rw [revealsHorizontally, revealsHorizontally, hsome]
    rfl

/-- Whether there is anything to do does not depend on the direction. -/
theorem toOption_swap (o : Outcome) : o.swap.toOption = o.toOption.map swap := by
  have hnone : o.swap.isNoop = o.isNoop := Option.isNone_map
  rw [toOption, toOption, hnone]
  split <;> rfl

/-- Readings that are tried in turn are turned round one by one. -/
theorem map_swap_orElse (o? o'? : Option Outcome) :
    (o? <|> o'?).map swap = (o?.map swap <|> o'?.map swap) := by
  cases o? <;> rfl

end Outcome

/-! ## Operations -/

/-- A replaced range leaves a caret. -/
theorem Outcome.typePlain_swap (s : Selection) (t : Text) :
    typePlain s.swap t = (typePlain s t).swap := by
  rw [typePlain, Selection.range_swap]
  rfl

namespace Context

variable (ctx : Context) (s : Selection) (c : Char)

/-- A line break has no selection in it. -/
theorem swap_enter (keep : Bool) (r : Range) : (ctx.enter keep r).swap = ctx.enter keep r := by
  have hplace (a : EnterAnswer) :
      (ctx.config.breakPlacement a keep).swap = ctx.config.breakPlacement a keep := by
    unfold Config.breakPlacement
    split
    · rfl
    · split <;> rfl
  unfold enter
  split
  · rename_i a _
    have hcommand : (ctx.breakCommand keep r a).swap = ctx.breakCommand keep r a := by
      rw [breakCommand_eq, Command.swap, hplace]
    exact congrArg (fun c => (Outcome.ofCommand c).withBoundaryBefore.withAutoWhitespace) hcommand
  · rfl

theorem splitLine_swap : ctx.splitLine s.swap = (ctx.splitLine s).swap := by
  rw [splitLine, splitLine, Selection.range_swap, breakLine]
  cases ho : (ctx.enter true s.range).toOption with
  | none => rfl
  | some o =>
    have hself : o.swap = o := by
      have hmap := (ctx.enter true s.range).toOption_swap
      rw [swap_enter, ho] at hmap
      exact (Option.some.inj hmap).symm
    exact hself.symm

/-- The line a whole line goes above is that of the head. Only a selection on one line gets there.
-/
theorem paste_swap (t : Text) (wholeLine : Bool) :
    ctx.paste s.swap t wholeLine = (ctx.paste s t wholeLine).swap := by
  unfold paste
  rw [Selection.range_swap]
  split
  · -- the two ends are on one line
    rename_i hline
    have hsingle : s.range.isSingleLine = true := by
      simp only [Bool.and_eq_true, isCaretOrLine] at hline
      exact hline.2.1
    rw [Selection.isSingleLine_range, Selection.isSingleLine, beq_iff_eq] at hsingle
    have hhead : s.swap.head.line = s.head.line := hsingle
    rw [hhead]
    rfl
  · rfl

/-! ## Typed characters -/

/-- A line break replaces the range. -/
theorem typeBreak?_swap : ctx.typeBreak? s.swap c = (ctx.typeBreak? s c).map .swap := by
  unfold typeBreak?
  rw [Selection.range_swap]
  split
  · rw [← Outcome.toOption_swap, swap_enter]
  · rfl

/-- Only a caret steps over a closer. -/
theorem overtype?_swap : ctx.overtype? s.swap c = (ctx.overtype? s c).map .swap := by
  cases h : s.isEmpty with
  | true =>
    rw [Selection.swap_of_isEmpty h, overtype?]
    split <;> rfl
  | false => simp [overtype?, h]

/-- Only a caret puts in a pair. -/
theorem closePair?_swap : ctx.closePair? s.swap c = (ctx.closePair? s c).map .swap := by
  cases h : s.isEmpty with
  | true =>
    rw [Selection.swap_of_isEmpty h, closePair?]
    split
    · split
      · split <;> rfl
      · rfl
    · rfl
  | false => simp [closePair?, h]

/-- The wrapped text stays selected, in its direction. -/
theorem wrap?_swap : ctx.wrap? s.swap c = (ctx.wrap? s c).map .swap := by
  unfold wrap?
  rw [Selection.isEmpty_swap, Selection.range_swap]
  split
  · split
    · split <;> rfl
    · rfl
  · rfl

/-- An alignment leaves a caret. -/
theorem swap_align? (p : Position) (opener : Char) :
    (ctx.align? p opener c).map .swap = ctx.align? p opener c := by
  unfold align?
  split
  · simp only
    split <;> rfl
  · rfl

/-- Only a caret completes or aligns. -/
theorem electric?_swap : ctx.electric? s.swap c = (ctx.electric? s c).map .swap := by
  cases h : s.isEmpty with
  | true =>
    rw [Selection.swap_of_isEmpty h, electric?]
    split
    · split
      · rfl
      · exact (ctx.swap_align? c _ _).symm
      · rfl
    · rfl
  | false => simp [electric?, h]

/-- Each reading of a character is the same with the ends swapped, so the first is. -/
theorem type_swap (t : Text) : ctx.type s.swap t = (ctx.type s t).swap := by
  have hinterpret (c : Char) : ctx.interpret? s.swap c = (ctx.interpret? s c).map .swap := by
    simp only [interpret?, typeBreak?_swap, overtype?_swap, closePair?_swap, wrap?_swap,
      electric?_swap, Outcome.map_swap_orElse]
  unfold type
  split
  · rename_i c
    rw [hinterpret, Outcome.typePlain_swap]
    cases ctx.interpret? s c <;> rfl
  · exact Outcome.typePlain_swap s t

/-! ## Whole lines -/

/-- A shift keeps the direction. -/
theorem shift_swap (d : ShiftDirection) : ctx.shift d s.swap = (ctx.shift d s).swap := by
  simp only [shift, Shift.ofSelection_swap]
  rfl

theorem jump_swap : ctx.jump s.swap = (ctx.jump s).swap := by
  rw [jump, Selection.range_swap, Selection.start_swap]
  rfl

/-- Tab looks at the range, and the line of its start. -/
theorem tab_swap : ctx.tab s.swap = (ctx.tab s).swap := by
  unfold tab indent
  simp only [Selection.isEmpty_swap, Selection.range_swap, Selection.start_swap, jump_swap,
    shift_swap]
  split
  · split <;> rfl
  · split <;> rfl

/-- A join within a line keeps the selection, any other leaves a caret. -/
theorem joinPlacement_swap : ctx.joinPlacement s.swap = (ctx.joinPlacement s).swap := by
  unfold joinPlacement
  rw [Selection.isEmpty_swap, Selection.isSingleLine_swap, Selection.range_swap]
  split
  · rfl
  · split <;> rfl

theorem joinLines_swap : ctx.joinLines s.swap = (ctx.joinLines s).swap := by
  simp only [joinLines, Selection.range_swap, joinPlacement_swap]
  split <;> rfl

end Context

/-! ## All of them -/

namespace EditStep

/-- The operation works on what is selected. The others go by the caret. -/
def OnSelection : EditStep → Prop
  | type _ | typePlain _ | paste _ _ | enter _ _ | tab | indent | outdent | splitLine
  | joinLines => True
  | replacePrevious _ _ | openAbove | openBelow => False

/-- Swapping the ends of the selection swaps them in the outcome. -/
theorem outcome_swap (ctx : Context) (s : Selection) {e : EditStep} (he : e.OnSelection) :
    e.outcome ctx s.swap = (e.outcome ctx s).swap := by
  cases e with
  | type t => exact ctx.type_swap s t
  | typePlain t => exact Outcome.typePlain_swap s t
  | paste t wholeLine => exact ctx.paste_swap s t wholeLine
  | enter keep range? =>
    rw [outcome, outcome, Selection.range_swap, Context.swap_enter]
  | tab => exact ctx.tab_swap s
  | indent => exact ctx.shift_swap s .indent
  | outdent => exact ctx.shift_swap s .outdent
  | splitLine => exact ctx.splitLine_swap s
  | joinLines => exact ctx.joinLines_swap s
  | replacePrevious t count => exact he.elim
  | openAbove => exact he.elim
  | openBelow => exact he.elim

/-- An operation on what is selected makes the same edits and puts the same marks whichever
way the selection extends, and the selection it leaves extends the other way. -/
theorem swapOf_outcome (ctx : Context) (s : Selection) {e : EditStep} (he : e.OnSelection) :
    (e.outcome ctx s.swap).SwapOf (e.outcome ctx s) := by
  rw [outcome_swap ctx s he]
  exact (e.outcome ctx s).swapOf_swap

/-- Two lines wrapped in brackets, selected from the start and from the end. -/
theorem swapOf_outcome_wrapped :
    let ctx : Context := ⟨.standard, (Buffer.ofText ['a', '\n', 'b']).view,
      BracketRules.standard.toRules⟩
    let s : Selection := ⟨⟨1, 1⟩, ⟨2, 2⟩⟩
    ((EditStep.type ['(']).outcome ctx s).command? = some (.surround s '(' ')') ∧
      ((EditStep.type ['(']).outcome ctx s.swap).SwapOf ((EditStep.type ['(']).outcome ctx s) := by
  intro ctx s
  have he : (EditStep.type ['(']).OnSelection := trivial
  exact ⟨by decide, swapOf_outcome ctx s he⟩

end EditStep

end Keystroke
