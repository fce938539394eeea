import Keystroke.Proofs.CheckedLine
import Keystroke.Proofs.CheckedQueries
import Keystroke.Proofs.JoinedText
import Keystroke.Session
import Mathlib.Algebra.Group.Nat.Defs

/-!
# Operations without a fault

Every operation on a selection, computed with steps that may fault. What keeps a step from
faulting is often far from it : a column in front of which a line is cut comes from the cursor or
from the indentation of a line, a tab size from the settings, a line above from the number of the
caret's line, the index the joined text is cut at from what is trimmed off its end. Each
computation is followed by a lemma that it returns, with the result the operation has. Together
they give `Checked.neverFaults` : the cursor need not be inside the buffer, only counted from one,
and the rules and the view may answer what they like.
-/

namespace Keystroke

/-- Counted from one. -/
def Position.Counted (p : Position) : Prop :=
  1 ≤ p.line ∧ 1 ≤ p.column

instance (p : Position) : Decidable p.Counted :=
  inferInstanceAs (Decidable (_ ∧ _))

/-- Both ends are counted from one. -/
def Selection.Counted (s : Selection) : Prop :=
  s.anchor.Counted ∧ s.head.Counted

/-- The range of a selection has its ends, in order. -/
theorem Selection.Counted.range {s : Selection} (h : s.Counted) :
    s.range.start.Counted ∧ s.range.stop.Counted := by
  unfold Selection.range Range.ofEnds
  split
  · exact h
  · exact h.symm

/-- Lines no longer than the largest index. -/
def View.Sized (v : View) : Prop :=
  ∀ line, (v.lineContent line).length ≤ Position.maxCoordinate

namespace Checked

/-! ## Readings in turn -/

/-- The first of two readings that applies. -/
def orElse {α : Type} (first second : Checked (Option α)) : Checked (Option α) := do
  match ← first with
  | some a => return some a
  | none => second

/-- Readings that return are tried in turn without a fault. -/
theorem orElse_pure {α : Type} (first second : Option α) :
    orElse (pure first) (pure second) = pure (first <|> second) := by
  cases first <;> rfl

variable (ctx : Context)

/-! ## Line breaks -/

/-- Counted out by a quotient. -/
def outdentAsTabs (indentation : Text) (tabSize : Nat) : Checked Text := do
  return List.replicate (← outdentCount indentation (indentation.length + 1) tabSize) '\t'

/-- Every form of a line break writes indentation in the style, which divides by the tab size. -/
def breakCommand (keep : Bool) (r : Range) (a : EnterAnswer) : Checked Command :=
  let style := ctx.config.style
  match a.action with
  | .keep | .indent => do
    return .typeKeeping keep r ('\n' :: (← normalize style (a.indentation ++ a.appended)))
  | .indentOutdent => do
    let normal ← normalize style a.indentation
    let deeper ← normalize style (a.indentation ++ a.appended)
    let text := '\n' :: deeper ++ '\n' :: normal
    return if keep then .typeBehind r text
      else .typeOffset r text (-1) ((deeper.length : Int) - normal.length)
  | .outdent => do
    let outer ← outdentAsTabs a.indentation ctx.config.tabSize
    return .typeKeeping keep r ('\n' :: (← normalize style (outer ++ a.appended)))

def enter (keep : Bool) (r : Range) : Checked Outcome :=
  match ctx.rules.enter? ctx.view r.start.line r.start.column with
  | some a => do
    return (Outcome.ofCommand (← breakCommand ctx keep r a)).withBoundaryBefore.withAutoWhitespace
  | none => pure .noop

def breakLine (keep : Bool) (r : Range) : Checked Outcome := do
  return (← enter ctx keep r).toOption.getD
    (Outcome.ofCommand (.typeKeeping keep r ['\n'])).withBoundaryBefore

/-- The last of the first so many lines that holds more than spaces and tabs. -/
def lastContentLine (v : View) : (count : Nat) → Checked (Option Nat)
  | 0 => pure none
  | n + 1 => do
    if (← lastContent (v.lineContent (n + 1))).isSome then return some (n + 1)
    else lastContentLine v n

/-- The answer of the rules at the end of a line, or the indentation of the line, cut behind its
last byte. -/
def enterAnswer (line : Nat) : Checked EnterAnswer :=
  match ctx.rules.enter? ctx.view line (ctx.view.maxColumn line) with
  | some a => pure a
  | none => do return { indentation := ← leadingIndent (ctx.view.lineContent line) }

def indentAfter (line : Nat) : Checked Text := do
  let a ← enterAnswer ctx line
  match a.action with
  | .outdent => do
    let outer ← outdentAsTabs a.indentation ctx.config.tabSize
    return (← normalize ctx.config.style outer) ++ a.appended
  | .keep | .indent | .indentOutdent => return a.indentation ++ a.appended

/-- The lines above are looked at from the last one up. Above the first line there is none, and the
number in front of zero is taken to be zero. -/
def goodIndent (line : Nat) : Checked Text := do
  match ← lastContentLine ctx.view (line - 1) with
  | none => return ['\t']
  | some above =>
    let indent ← indentAfter ctx above
    return if indent = [] then ['\t'] else indent

section

variable {ctx}

/-- The tab size of settings is positive. -/
theorem normalize_style_eq (c : Config) (t : Text) : normalize c.style t = pure (c.normalize t) :=
  normalize_eq c.tabSize_pos t

theorem outdentAsTabs_eq {tabSize : Nat} (h : 0 < tabSize) (indentation : Text) :
    outdentAsTabs indentation tabSize = pure (Keystroke.outdentAsTabs indentation tabSize) := by
  rw [outdentAsTabs, outdentCount_eq h, pure_bind, Keystroke.outdentAsTabs]

/-- All settings can be divided by. -/
theorem breakCommand_eq (keep : Bool) (r : Range) (a : EnterAnswer) :
    breakCommand ctx keep r a = pure (ctx.breakCommand keep r a) := by
  have htab : 0 < ctx.config.tabSize := ctx.config.tabSize_pos
  simp only [breakCommand, normalize_style_eq, outdentAsTabs_eq htab, pure_bind,
    Context.breakCommand]
  cases a.action with
  | keep => rfl
  | indent => rfl
  | indentOutdent => rfl
  | outdent => rfl

theorem enter_eq (keep : Bool) (r : Range) : enter ctx keep r = pure (ctx.enter keep r) := by
  simp only [enter, breakCommand_eq, pure_bind, Context.enter]
  cases ctx.rules.enter? ctx.view r.start.line r.start.column with
  | none => rfl
  | some a => rfl

theorem breakLine_eq (keep : Bool) (r : Range) :
    breakLine ctx keep r = pure (ctx.breakLine keep r) := by
  rw [breakLine, enter_eq, pure_bind, Context.breakLine]

theorem lastContentLine_eq (v : View) (count : Nat) :
    lastContentLine v count = pure (v.lastContentLine? count) := by
  induction count with
  | zero => rfl
  | succ n ih =>
    rw [lastContentLine, lastContent_eq, pure_bind, Text.isSome_lastContent?, ih,
      View.lastContentLine?]
    exact ite_pure _ _ _

theorem enterAnswer_eq (line : Nat) : enterAnswer ctx line =
    pure ((ctx.rules.enter? ctx.view line (ctx.view.maxColumn line)).getD
      { indentation := (ctx.view.lineContent line).leadingIndent }) := by
  rw [enterAnswer, leadingIndent_eq, pure_bind]
  cases ctx.rules.enter? ctx.view line (ctx.view.maxColumn line) with
  | none => rfl
  | some a => rfl

/-- What is cut off a line is its indentation. -/
theorem indentAfter_eq (line : Nat) : indentAfter ctx line = pure (ctx.indentAfter line) := by
  have htab : 0 < ctx.config.tabSize := ctx.config.tabSize_pos
  rw [indentAfter, enterAnswer_eq, pure_bind, Context.indentAfter]
  generalize (ctx.rules.enter? ctx.view line (ctx.view.maxColumn line)).getD
    { indentation := (ctx.view.lineContent line).leadingIndent } = a
  obtain ⟨action, append, indentation⟩ := a
  cases action with
  | keep => rfl
  | indent => rfl
  | indentOutdent => rfl
  | outdent =>
    dsimp only
    rw [outdentAsTabs_eq htab, pure_bind, normalize_style_eq, pure_bind]

theorem goodIndent_eq (line : Nat) : goodIndent ctx line = pure (ctx.goodIndent line) := by
  rw [goodIndent, lastContentLine_eq, pure_bind, Context.goodIndent, View.contentAbove?_eq]
  cases ctx.view.lastContentLine? (line - 1) with
  | none => rfl
  | some above =>
    dsimp only
    rw [indentAfter_eq, pure_bind]

end

/-! ## Tab and shifts -/

def shift (d : ShiftDirection) (s : Selection) : Checked Outcome := do
  let o : ShiftOptions := ⟨d, ctx.config.tabSize, ctx.config.oneIndent⟩
  return (Outcome.ofCommand (.shift (← shiftOfSelection ctx.view s o))).withBoundaries

/-- A jump in spaces is as long as what is left up to the next stop. -/
def jumpText (p : Position) : Checked Text :=
  if ctx.config.insertSpaces then do
    let x ← visibleColumn (ctx.view.lineContent p.line) p.column ctx.config.tabSize
    return List.replicate (← tabWidthAt x ctx.config.tabSize) ' '
  else pure ['\t']

def jump (s : Selection) : Checked Outcome := do
  return .ofCommand (.type s.range (← jumpText ctx s.start))

/-- Only a blank line has its good indentation looked up. -/
def reindent (line : Nat) : Checked (Option Text) :=
  let text := ctx.view.lineContent line
  if text.isBlankLine then do
    let good ← normalize ctx.config.style (← goodIndent ctx line)
    return if good.isPrefixOf text then none else some good
  else pure none

def tab (s : Selection) : Checked Outcome :=
  if s.isEmpty then do
    let line := s.start.line
    match ← reindent ctx line with
    | some good =>
      return (Outcome.ofCommand
        (.type (.onLine line 1 (ctx.view.maxColumn line)) good)).withAutoWhitespace
    | none => jump ctx s
  else if ctx.isPartial s.range then jump ctx s
  else shift ctx .indent s

section

variable {ctx} {s : Selection}

/-- A shift needs a range that starts on a line counted from one. -/
theorem shift_eq (d : ShiftDirection) (h : s.Counted) :
    shift ctx d s = pure (ctx.shift d s) := by
  rw [shift, shiftOfSelection_eq _ _ h.range.1.1, pure_bind, Context.shift]

/-- What is left up to a stop is positive. -/
theorem jumpText_eq (p : Position) : jumpText ctx p = pure (ctx.jumpText p) := by
  have htab : 0 < ctx.config.tabSize := ctx.config.tabSize_pos
  rw [jumpText, visibleColumn_eq htab, pure_bind, tabWidthAt_eq htab, pure_bind, Context.jumpText]
  exact ite_pure _ _ _

theorem jump_eq (s : Selection) : jump ctx s = pure (ctx.jump s) := by
  rw [jump, jumpText_eq, pure_bind, Context.jump]

theorem reindent_eq (line : Nat) : reindent ctx line = pure (ctx.reindent? line) := by
  simp only [reindent, goodIndent_eq, pure_bind, normalize_style_eq, Context.reindent?]
  cases (ctx.view.lineContent line).isBlankLine with
  | false => rfl
  | true =>
    cases (ctx.config.normalize (ctx.goodIndent line)).isPrefixOf (ctx.view.lineContent line) with
    | false => rfl
    | true => rfl

/-- Of the three ways Tab goes, only the shift looks at where the selection is. -/
theorem tab_eq (h : s.Counted) : tab ctx s = pure (ctx.tab s) := by
  simp only [tab, reindent_eq, pure_bind, jump_eq, shift_eq .indent h, Context.tab, Context.indent]
  by_cases hempty : s.isEmpty = true
  · rw [if_pos hempty, if_pos hempty]
    cases ctx.reindent? s.start.line with
    | none => rfl
    | some good => rfl
  · rw [if_neg hempty, if_neg hempty]
    exact ite_pure _ _ _

end

/-! ## Typed characters -/

def typeBreak (s : Selection) (c : Char) : Checked (Option Outcome) :=
  if c = '\n' then do return (← enter ctx false s.range).toOption else pure none

/-- Where a range starts on one of its lines. -/
def coveredFrom (r : Range) (line : Nat) : Checked Nat :=
  if line = r.start.line then sub r.start.column 1 else pure 0

/-- Where a range stops on one of its lines : nowhere if it goes on. -/
def coveredTo (r : Range) (line : Nat) : Checked Nat :=
  if line = r.stop.line then sub r.stop.column 1 else pure Position.maxCoordinate

/-- The part of a line that a range covers. Where the range goes on, it is cut at the largest
index. -/
def coveredPart (r : Range) (line : Nat) : Checked Text := do
  slice (ctx.view.lineContent line) (← coveredFrom r line) (← coveredTo r line)

/-- Whether a range covers a character that is no blank. Lines that do not exist are looked at
too. -/
def coversNonBlank (r : Range) : Checked Bool :=
  (linesBetween r.start.line r.stop.line).anyM fun line => do
    return (← coveredPart ctx r line).any fun c => !isBlank c

/-- A selection is wrapped after a look at what it covers. -/
def wrap (s : Selection) (c : Char) : Checked (Option Outcome) :=
  if ctx.config.autoClosing && !s.isEmpty then
    match ctx.config.surroundCloserOf? c with
    | some closer => do
      if ← coversNonBlank ctx s.range then
        return some (Outcome.ofCommand (.surround s c closer)).withBoundaries
      else return none
    | none => pure none
  else pure none

/-- The line is cut twice, in front of what stays and at the caret. -/
def align (p : Position) (opener c : Char) : Checked (Option Outcome) :=
  match ctx.view.openerAbove? opener p with
  | some found =>
    if found.start.line = p.line then pure none
    else do
      let indentation ← normalize ctx.config.style
        (← leadingIndent (ctx.view.lineContent found.start.line))
      let first := min ((ctx.view.firstContentColumn? p.line).getD p.column) p.column
      let kept ← slice (ctx.view.lineContent p.line) (← sub first 1) (← sub p.column 1)
      return some (Outcome.ofCommand
        (.type (.onLine p.line 1 p.column) (indentation ++ kept ++ [c]))).withBoundaryAfter
  | none => pure none

def electric (s : Selection) (c : Char) : Checked (Option Outcome) :=
  if ctx.config.isElectric c && s.isEmpty then
    match ctx.electricAction? c s.head with
    | some { append? := some append, .. } => pure (some (Context.complete s c append))
    | some { append? := none, alignWith? := some opener } => align ctx s.head opener c
    | _ => pure none
  else pure none

/-- The first reading of a typed character that applies. -/
def interpret (s : Selection) (c : Char) : Checked (Option Outcome) :=
  orElse (typeBreak ctx s c) <| orElse (pure (ctx.overtype? s c)) <|
    orElse (pure (ctx.closePair? s c)) <| orElse (wrap ctx s c) (electric ctx s c)

/-- Only a single character is read in other ways. -/
def type (s : Selection) (t : Text) : Checked Outcome :=
  match t with
  | [c] => do return (← interpret ctx s c).getD (.typePlain s t)
  | _ => pure (.typePlain s t)

section

variable {ctx} {s : Selection}

theorem typeBreak_eq (s : Selection) (c : Char) :
    typeBreak ctx s c = pure (ctx.typeBreak? s c) := by
  rw [typeBreak, enter_eq, pure_bind, Context.typeBreak?]
  exact ite_pure _ _ _

/-- The columns are counted from one, and no line is longer than the largest index. -/
theorem coveredPart_eq (hsize : ctx.view.Sized) {r : Range} (hstart : r.start.Counted)
    (hstop : r.stop.Counted) (line : Nat) :
    coveredPart ctx r line = pure (ctx.coveredPart r line) := by
  have hfrom : coveredFrom r line =
      pure (if line = r.start.line then r.start.column - 1 else 0) := by
    rw [coveredFrom, sub_eq hstart.2]
    exact ite_pure _ _ _
  rw [coveredPart, hfrom, pure_bind, coveredTo, sub_eq hstop.2, Context.coveredPart]
  by_cases hline : line = r.stop.line
  · rw [if_pos hline, if_pos hline, pure_bind, slice_eq]
  · rw [if_neg hline, if_neg hline, pure_bind, slice_maxCoordinate (hsize line), Text.slice_length]

/-- Nothing of a range is on a line past the last one. -/
theorem coversNonBlank_eq (hsize : ctx.view.Sized) {r : Range} (hstart : r.start.Counted)
    (hstop : r.stop.Counted) : coversNonBlank ctx r = pure (ctx.coversNonBlank r) := by
  have hpast : ∀ line, ctx.view.lineCount < line → ctx.coveredPart r line = [] := by
    intro line hline
    rw [Context.coveredPart, ctx.view.lineContent_eq_nil hline, Text.slice, List.drop_nil,
      List.take_nil]
  simp only [coversNonBlank, coveredPart_eq hsize hstart hstop, pure_bind, List.anyM_pure]
  refine congrArg pure (Bool.eq_iff_iff.mpr ?_)
  rw [Context.coversNonBlank, List.any_eq_true, List.any_eq_true]
  constructor
  · rintro ⟨line, hmem, hany⟩
    have hline : line ≤ ctx.view.lineCount := Nat.le_of_not_lt fun hlt => by
      rw [hpast line hlt] at hany
      cases hany
    rw [mem_linesBetween] at hmem
    exact ⟨line, mem_linesBetween.mpr ⟨hmem.1, by omega⟩, hany⟩
  · rintro ⟨line, hmem, hany⟩
    rw [mem_linesBetween] at hmem
    exact ⟨line, mem_linesBetween.mpr ⟨hmem.1, by omega⟩, hany⟩

/-- Lines that do not exist cover nothing. -/
theorem wrap_eq (hsize : ctx.view.Sized) (h : s.Counted) (c : Char) :
    wrap ctx s c = pure (ctx.wrap? s c) := by
  rw [wrap, Context.wrap?, coversNonBlank_eq hsize h.range.1 h.range.2]
  split
  · cases ctx.config.surroundCloserOf? c with
    | none => rfl
    | some closer => exact ite_pure _ _ _
  · rfl

/-- What stays in front of the caret starts in a column counted from one. -/
theorem align_eq {p : Position} (h : p.Counted) (opener c : Char) :
    align ctx p opener c = pure (ctx.align? p opener c) := by
  have hfirst : 1 ≤ min ((ctx.view.firstContentColumn? p.line).getD p.column) p.column := by
    refine Nat.le_min.mpr ⟨?_, h.2⟩
    rw [View.firstContentColumn?]
    cases (ctx.view.lineContent p.line).firstContent? with
    | none => exact h.2
    | some i => exact Nat.le_add_left 1 i
  rw [align, Context.align?]
  cases ctx.view.openerAbove? opener p with
  | none => rfl
  | some found =>
    simp only [leadingIndent_eq, pure_bind, normalize_style_eq, sub_eq hfirst, sub_eq h.2, slice_eq]
    exact ite_pure _ _ _

theorem electric_eq (h : s.Counted) (c : Char) :
    electric ctx s c = pure (ctx.electric? s c) := by
  rw [electric, Context.electric?]
  split
  · rcases ctx.electricAction? c s.head with _ | ⟨_ | append, _ | opener⟩
    · rfl
    · rfl
    · exact align_eq h.2 opener c
    · rfl
    · rfl
  · rfl

theorem interpret_eq (hsize : ctx.view.Sized) (h : s.Counted) (c : Char) :
    interpret ctx s c = pure (ctx.interpret? s c) := by
  simp only [interpret, typeBreak_eq, wrap_eq hsize h, electric_eq h, orElse_pure]
  rfl

theorem type_eq (hsize : ctx.view.Sized) (h : s.Counted) (t : Text) :
    type ctx s t = pure (ctx.type s t) := by
  rcases t with _ | ⟨c, _ | ⟨d, t⟩⟩
  · rfl
  · rw [type, interpret_eq hsize h, pure_bind, Context.type]
  · rfl

end

/-! ## Whole lines -/

/-- The line above the line of the caret, if there is one. -/
def openAbove (s : Selection) : Checked Outcome :=
  if s.head.line = 1 then pure (.ofCommand (.typeBehind (.onLine 1 1 1) ['\n']))
  else do breakLine ctx false (.point (ctx.view.lineEnd (← sub s.head.line 1)))

/-- Add the content of a line. The text so far is cut behind its last byte that is no space and no
tab. -/
def addSegment (j : Joined) (segment : Text) : Checked Joined :=
  if j.text.endsInIndent then do
    let text ← takeBytes j.text (Text.byteLength j.text.trimEndIndent)
    return ⟨text ++ ' ' :: segment, segment.length⟩
  else pure (j.add segment)

/-- A line is cut in front of its content, up to the largest index. -/
def addLine (j : Joined) (line : Text) : Checked Joined :=
  match line.firstContent?.map (· + 1) with
  | none => pure { j with lastAdded := 0 }
  | some column => do addSegment j (← slice line (← sub column 1) Position.maxCoordinate)

/-- The lines of a range, joined one after the other. -/
def joined (r : Range) : Checked Joined :=
  (linesBetween (r.start.line + 1) (ctx.joinEnd r)).foldlM
    (fun j line => addLine j (ctx.view.lineContent line))
    ⟨ctx.view.lineContent r.start.line, 0⟩

/-- Characters after a position on its line, not counting the line's indentation. -/
def charsAfter (p : Position) : Checked Nat :=
  match ctx.view.firstContentColumn? p.line with
  | some first => do return ctx.view.lineLength p.line - (← sub (max p.column first) 1)
  | none => pure 0

/-- Where a join leaves the caret, counted from the end of the joined text. -/
def joinPlacement (s : Selection) (lastAdded : Nat) : Checked Placement :=
  if s.isEmpty then pure (.offset 0 (-(lastAdded : Int)))
  else if s.isSingleLine then pure (.preserve s)
  else do return .offset 0 (-((← charsAfter ctx s.range.stop : Nat) : Int))

def joinLines (s : Selection) : Checked Outcome :=
  let r := ctx.joinRange s.range
  if r.isEmpty then pure .noop
  else do
    let j ← joined ctx s.range
    return (Outcome.ofCommand (.replace ⟨r, j.text⟩ (← joinPlacement ctx s j.lastAdded)))
      |>.withBoundaries

section

variable {ctx} {s : Selection}

/-- There is a line above any line but the first. -/
theorem openAbove_eq (h : s.Counted) : openAbove ctx s = pure (ctx.openAbove s) := by
  rw [openAbove, sub_eq h.2.1, pure_bind, breakLine_eq, Context.openAbove]
  exact ite_pure _ _ _

/-- What is cut off ends in front of a character. -/
theorem addSegment_eq (j : Joined) (segment : Text) :
    addSegment j segment = pure (j.add segment) := by
  obtain ⟨rest, -, hrest⟩ := Text.exists_trimEndIndent_append j.text
  have htake := takeBytes_append j.text.trimEndIndent rest
  rw [hrest] at htake
  rw [addSegment, htake, pure_bind]
  split
  · rename_i hend
    rw [Joined.add, if_pos hend]
  · rfl

/-- A line with content has it in a column counted from one, up to the end. -/
theorem addLine_eq (j : Joined) {line : Text} (h : line.length ≤ Position.maxCoordinate) :
    addLine j line = pure (j.addLine line) := by
  have hstart := Text.getD_firstContent? line
  have hcontent : line.firstContent?.isSome = line.hasContent := Text.isSome_firstContent? line
  rw [addLine, Joined.addLine]
  cases hfirst : line.firstContent? with
  | none =>
    rw [hfirst] at hcontent
    rw [if_pos (Text.content_eq_nil_iff.mpr hcontent.symm)]
    rfl
  | some i =>
    rw [hfirst] at hcontent hstart
    have hdrop : line.drop i = line.content := by
      rw [show i = line.leadingIndent.length from hstart,
        Text.drop_length_leadingIndent]
    have hne : line.content ≠ [] := fun hnil => by
      rw [Text.content_eq_nil_iff.mp hnil] at hcontent
      cases hcontent
    rw [if_neg hne, Option.map_some]
    dsimp only
    rw [sub_eq (Nat.le_add_left 1 i), pure_bind, Nat.add_sub_cancel, slice_maxCoordinate h,
      pure_bind, hdrop, addSegment_eq]

theorem joined_eq (hsize : ctx.view.Sized) (r : Range) : joined ctx r = pure (ctx.joined r) := by
  simp only [joined, fun j line => addLine_eq j (hsize line), List.foldlM_pure]
  rw [Context.joined, Joined.ofLines, List.foldl_map]

/-- A column counted from one is past zero, and so is the larger of two. -/
theorem charsAfter_eq {p : Position} (h : p.Counted) :
    charsAfter ctx p = pure (ctx.charsAfter p) := by
  rw [charsAfter, Context.charsAfter]
  cases ctx.view.firstContentColumn? p.line with
  | none => rfl
  | some first =>
    have hmax : 1 ≤ max p.column first := Nat.le_trans h.2 (Nat.le_max_left _ _)
    dsimp only
    rw [sub_eq hmax, pure_bind]

theorem joinPlacement_eq (h : s.Counted) :
    joinPlacement ctx s (ctx.joined s.range).lastAdded = pure (ctx.joinPlacement s) := by
  rw [joinPlacement, charsAfter_eq h.range.2, pure_bind, Context.joinPlacement]
  split
  · rfl
  · exact ite_pure _ _ _

theorem joinLines_eq (hsize : ctx.view.Sized) (h : s.Counted) :
    joinLines ctx s = pure (ctx.joinLines s) := by
  simp only [joinLines, joined_eq hsize, joinPlacement_eq h, pure_bind, Context.joinLines]
  exact ite_pure _ _ _

end

/-! ## All operations -/

/-- What an operation answers. -/
def outcome (s : Selection) : EditStep → Checked Outcome
  | .type t => type ctx s t
  | .typePlain t => pure (.typePlain s t)
  | .replacePrevious t count => pure (.replacePrevious s t count)
  | .paste t wholeLine => pure (ctx.paste s t wholeLine)
  | .enter keep range? => enter ctx keep (range?.getD s.range)
  | .tab => tab ctx s
  | .indent => shift ctx .indent s
  | .outdent => shift ctx .outdent s
  | .openAbove => openAbove ctx s
  | .openBelow => breakLine ctx false (.point (ctx.view.lineEnd s.head.line))
  | .splitLine => breakLine ctx true s.range
  | .joinLines => joinLines ctx s

/-- No operation faults. -/
theorem outcome_eq {ctx : Context} {s : Selection} (hsize : ctx.view.Sized) (h : s.Counted)
    (e : EditStep) : outcome ctx s e = pure (e.outcome ctx s) := by
  cases e with
  | type t => exact type_eq hsize h t
  | typePlain t => rfl
  | replacePrevious t count => rfl
  | paste t wholeLine => rfl
  | enter keep range? => exact enter_eq keep _
  | tab => exact tab_eq h
  | indent => exact shift_eq .indent h
  | outdent => exact shift_eq .outdent h
  | openAbove => exact openAbove_eq h
  | openBelow => exact breakLine_eq false _
  | splitLine => exact breakLine_eq true _
  | joinLines => exact joinLines_eq hsize h

/-- What returns without a fault : the operations on a selection and the indentation of a line, for
any rules and any view, and the queries of the rules for bracketed languages and of buffers. -/
structure NeverFaults (ctx : Context) (s : Selection) : Prop where
  outcome_returns : ∀ e, outcome ctx s e = pure (e.outcome ctx s)
  goodIndent_returns : ∀ line, goodIndent ctx line = pure (ctx.goodIndent line)
  bracketEnter_returns : ∀ (r : BracketRules) line column,
    bracketEnter r ctx.view line column = pure (r.enter ctx.view line column)
  bracketAutoCloses_returns : ∀ (r : BracketRules) c l column,
    bracketAutoCloses r c l column = pure (r.autoCloses c l column)
  bracketElectric_returns : ∀ (r : BracketRules) c l column,
    bracketElectric r c l column = pure (r.electric? c l column)
  lineContent_returns : ∀ (b : Buffer) line, lineContent b line = pure (b.lineContent line)
  openerAbove_returns : ∀ (b : Buffer) bracket p,
    openerAbove b bracket p = pure (b.openerAbove? bracket p)

/-- Nothing faults for a cursor that is counted from one, inside the buffer or not, as long as a
machine word can count the characters of a line. -/
theorem neverFaults {ctx : Context} {s : Selection} (h : s.Counted)
    (hsize : ∀ line, (ctx.view.lineContent line).length < 2 ^ 63) : NeverFaults ctx s := by
  have hsized : ctx.view.Sized := fun line => by
    have hline := hsize line
    rw [Position.maxCoordinate, maxWord]
    omega
  exact {
    outcome_returns := outcome_eq hsized h
    goodIndent_returns := goodIndent_eq
    bracketEnter_returns := fun r line column => bracketEnter_eq r (hsized line) column
    bracketAutoCloses_returns := bracketAutoCloses_eq
    bracketElectric_returns := bracketElectric_eq
    lineContent_returns := lineContent_eq
    openerAbove_returns := openerAbove_eq }

/-- Lines are joined from past the end of the first one up to a line that does not exist. -/
theorem neverFaults_outside :
    let b := Buffer.ofText ['é', '\t', '}', '\n']
    let ctx : Context := ⟨.ofStyle ⟨0, false⟩, b.view, BracketRules.standard.toRules⟩
    let s : Selection := ⟨⟨9, 4⟩, ⟨1, 7⟩⟩
    s.Counted ∧ (∀ line, (ctx.view.lineContent line).length < 2 ^ 63) ∧
      ¬b.Valid s.anchor ∧ ¬b.Valid s.head ∧
      outcome ctx s .joinLines = pure (Outcome.ofCommand
        (.typeOffset (.ofEnds ⟨1, 1⟩ ⟨9, 1⟩) ['é', '\t', '}'] 0 0)).withBoundaries := by
  intro b ctx s
  have hcounted : s.Counted := ⟨by decide, by decide⟩
  have hsize : ∀ line, (ctx.view.lineContent line).length < 2 ^ 63
    | 0 | 1 | 2 => by decide
    | n + 3 => by
      have hpast : ctx.view.lineCount < n + 3 :=
        Nat.lt_of_lt_of_le (by decide) (Nat.le_add_left 3 n)
      rw [ctx.view.lineContent_eq_nil hpast]
      decide
  have hreturns := (neverFaults hcounted hsize).outcome_returns .joinLines
  exact ⟨hcounted, hsize, by decide, by decide, hreturns.trans (congrArg pure (by decide))⟩

/-- In front of the first line there is none. -/
example (ctx : Context) : outcome ctx (.caret ⟨0, 1⟩) .openAbove = throw .belowZero := by
  rfl

end Checked

end Keystroke
