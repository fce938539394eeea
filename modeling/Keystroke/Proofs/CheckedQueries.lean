import Keystroke.Proofs.Apply
import Keystroke.Proofs.Checked
import Keystroke.Proofs.TokenLookup

/-!
# Queries without a fault

What an operation asks of the rules for bracketed languages and of a buffer, computed with steps
that may fault : a line cut in two at a column, a token taken by its index, a line cut in front of
its terminator, an index counted from the start of its line, brackets read backwards one index
after the other. All of them return, also for places outside the buffer.
-/

namespace Keystroke.Checked

/-! ## Rules for bracketed languages -/

section

variable (r : BracketRules)

/-- The answer to a line break. -/
def bracketEnter (v : View) (line column : Nat) : Checked EnterAnswer := do
  let before ← slice (v.lineContent line) 0 (column - 1)
  let after ← slice (v.lineContent line) (column - 1) Position.maxCoordinate
  let indentation ← leadingIndent before
  match before.trimEnd.getLast?.bind r.closerOf? with
  | some closer =>
    let action : IndentAction :=
      if after.trimStart.head? = some closer then .indentOutdent else .indent
    return { action, append := ['\t'], indentation }
  | none => return { indentation }

/-- The index of a token is looked up in the tokens. -/
def kindAt (l : LineTokens) (offset : Nat) : Checked (Option TokenKind) :=
  match l.indexAt? offset with
  | some i => do return some (← get l.tokens i).kind
  | none => pure none

/-- Whether an opener puts in its closer. -/
def bracketAutoCloses (c : Char) (l : LineTokens) (column : Nat) :
    Checked (Except RuleError Bool) :=
  match l.check with
  | .error e => pure (.error e)
  | .ok () =>
    if l.tokens = [] then pure (.ok true)
    else do
      let kind := (← kindAt l (column - 2)).getD .other
      match r.pairs.find? fun p => p.opener == c with
      | some p => return .ok (p.allows kind)
      | none => return .ok true

/-- What an electric character triggers. -/
def bracketElectric (c : Char) (l : LineTokens) (column : Nat) :
    Checked (Except RuleError (Option ElectricAction)) :=
  match l.check with
  | .error e => pure (.error e)
  | .ok () => do
    let before ← slice l.text 0 (column - 1)
    match r.completeDocComment? c before with
    | some a => return .ok (some a)
    | none =>
      match r.openerOf? c with
      | some opener =>
        return .ok (if before.isBlankLine then some { alignWith? := some opener } else none)
      | none => return .ok none

/-- The line is cut at the caret, up to the largest index behind it. -/
theorem bracketEnter_eq {v : View} {line : Nat}
    (h : (v.lineContent line).length ≤ Position.maxCoordinate) (column : Nat) :
    bracketEnter r v line column = pure (r.enter v line column) := by
  rw [bracketEnter, slice_eq _ 0, pure_bind, slice_maxCoordinate h, pure_bind, Text.slice_zero,
    leadingIndent_eq, pure_bind]
  simp only [BracketRules.enter]
  cases (Text.trimEnd (List.take (column - 1) (v.lineContent line))).getLast?.bind r.closerOf? with
  | none => rfl
  | some closer => rfl

/-- The index of a token that is found has a token. -/
theorem kindAt_eq (l : LineTokens) (offset : Nat) : kindAt l offset = pure (l.kindAt? offset) := by
  rw [kindAt, LineTokens.kindAt?]
  cases hindex : l.indexAt? offset with
  | none => rfl
  | some i =>
    obtain ⟨⟨t, ht, -⟩, -⟩ := lastIndex?_eq_some_iff.mp hindex
    rw [Option.bind_some, ht]
    dsimp only
    rw [get_eq ht, pure_bind]
    rfl

/-- The token that is found is there. -/
theorem bracketAutoCloses_eq (c : Char) (l : LineTokens) (column : Nat) :
    bracketAutoCloses r c l column = pure (r.autoCloses c l column) := by
  simp only [bracketAutoCloses, kindAt_eq, pure_bind, BracketRules.autoCloses]
  cases l.check with
  | error e => rfl
  | ok u =>
    by_cases htokens : l.tokens = []
    · simp only [htokens, if_true]
      rfl
    · simp only [htokens, if_false]
      cases r.pairs.find? fun p => p.opener == c with
      | none => rfl
      | some p => rfl

/-- A line is cut in front of the caret, wherever that is. -/
theorem bracketElectric_eq (c : Char) (l : LineTokens) (column : Nat) :
    bracketElectric r c l column = pure (r.electric? c l column) := by
  simp only [bracketElectric, slice_eq, Text.slice_zero, pure_bind, BracketRules.electric?]
  cases l.check with
  | error e => rfl
  | ok u =>
    cases r.completeDocComment? c (List.take (column - 1) l.text) with
    | some a => rfl
    | none =>
      cases r.openerOf? c with
      | none => rfl
      | some opener => rfl

end

/-! ## Buffers -/

section

variable (b : Buffer)

/-- Content of a line, cut off in front of the line breaks at its end. -/
def lineContent : (line : Nat) → Checked Text
  | 0 => pure []
  | n + 1 =>
    match b.lines[n]? with
    | some l =>
      takeBytes l.toText (Text.byteLength (l.toText.reverse.dropWhile isLineBreak).reverse)
    | none => pure []

/-- The index a line starts at, lines counted from zero. There is one past the last line. -/
def lineStart (n : Nat) : Checked Nat :=
  if b.lines.length < n then throw .outOfBounds else pure (Keystroke.lineStart b.lines n)

/-- The index of a position, from the start of its line. -/
def charIndex (p : Position) : Checked (Except BufferError Nat) :=
  if b.Valid p then do
    return .ok (← sub ((← lineStart b (← sub p.line 1)) + p.column) 1)
  else pure (.error (.outOfBounds p))

/-- The way from the start of a line to an index. -/
def positionAt (i : Nat) : Checked Position := do
  let stop := min i b.text.length
  let line := (b.positionAt i).line - 1
  return ⟨line + 1, (← sub stop (← lineStart b line)) + 1⟩

/-- The nearest unmatched opener below an index, with so many closers read already. -/
def openerBelow (opener closer : Char) (t : Text) : (depth i : Nat) → Checked (Option Nat)
  | _, 0 => pure none
  | depth, i + 1 => do
    let c ← get t i
    if c = closer then openerBelow opener closer t (depth + 1) i
    else if c = opener then
      if depth = 0 then return some i else openerBelow opener closer t (← sub depth 1) i
    else openerBelow opener closer t depth i

/-- The range of the nearest unmatched opener above a position. -/
def openerAbove (bracket : Char) (p : Position) : Checked (Option Range) :=
  match b.pairOf? bracket with
  | none => pure none
  | some (opener, closer) => do
    match ← charIndex b p with
    | .error _ => return none
    | .ok i =>
      match ← openerBelow opener closer b.text 0 i with
      | none => return none
      | some j =>
        let start ← positionAt b j
        return some (.ofEnds start (start.offset 0 1))

/-- The line breaks at the end of a line are its terminator. -/
theorem dropWhile_toText {l : Line} (h : l ∈ b.lines) :
    (l.toText.reverse.dropWhile isLineBreak).reverse = l.content := by
  have hterminator : ∀ c ∈ l.terminator.reverse, isLineBreak c = true := fun c hc =>
    b.isLines.isLineBreak_of_mem_terminator h (List.mem_reverse.mp hc)
  have hcontent : l.content.reverse.dropWhile isLineBreak = l.content.reverse := by
    cases hreverse : l.content.reverse with
    | nil => rfl
    | cons c t =>
      have hc : c ∈ l.content := List.mem_reverse.mp (hreverse ▸ List.mem_cons_self)
      exact List.dropWhile_cons_of_neg (by simp [b.isLines.unbroken_content h c hc])
  rw [Line.toText, List.reverse_append, List.dropWhile_append_of_pos hterminator, hcontent,
    List.reverse_reverse]

/-- What is trimmed off ends in front of a character. -/
theorem lineContent_eq (line : Nat) : lineContent b line = pure (b.lineContent line) := by
  cases line with
  | zero => rfl
  | succ n =>
    rw [lineContent, Buffer.lineContent, contentIn]
    cases hline : b.lines[n]? with
    | none => rfl
    | some l =>
      dsimp only
      rw [dropWhile_toText b (List.mem_of_getElem? hline), Line.toText, takeBytes_append]
      rfl

/-- A line up to the last one has a start, and so has what is past it. -/
theorem lineStart_eq {n : Nat} (h : n ≤ b.lines.length) :
    lineStart b n = pure (Keystroke.lineStart b.lines n) :=
  if_neg (Nat.not_lt_of_le h)

/-- Positions inside the buffer are on lines and columns counted from one. -/
theorem charIndex_eq (p : Position) : charIndex b p = pure (b.charIndex? p) := by
  rw [charIndex, Buffer.charIndex?]
  split
  · rename_i h
    obtain ⟨hline, hlast, hcolumn, -⟩ := h
    have hstart : p.line - 1 ≤ b.lines.length := Nat.le_trans (Nat.sub_le _ _) hlast
    rw [sub_eq hline, pure_bind, lineStart_eq b hstart, pure_bind,
      sub_eq (Nat.le_trans hcolumn (Nat.le_add_left _ _)), pure_bind, Nat.add_sub_assoc hcolumn]
  · rfl

/-- An index is not in front of its line. -/
theorem positionAt_eq (i : Nat) : positionAt b i = pure (b.positionAt i) := by
  have hstop : min i b.text.length ≤ (b.lines.flatMap Line.toText).length := by
    rw [b.flatMap_lines]
    exact Nat.min_le_right _ _
  obtain ⟨k, c, hk, hposition, hindex, -⟩ := b.isLines.exists_positionIn 1 hstop
  have hposition : b.positionAt i = ⟨1 + k, c + 1⟩ := hposition
  rw [positionAt, hposition]
  dsimp only
  rw [Nat.add_sub_cancel_left, lineStart_eq b (Nat.le_of_lt hk), pure_bind, hindex,
    sub_eq (Nat.le_add_right _ _), pure_bind, Nat.add_sub_cancel_left, Nat.add_comm k]

/-- Every index below is there, and no depth of zero is taken from. -/
theorem openerBelow_eq (opener closer : Char) {t : Text} {i : Nat} (h : i ≤ t.length)
    (depth : Nat) : openerBelow opener closer t depth i =
      pure ((unmatchedOpener? opener closer depth (t.take i).reverse).map fun back =>
        i - 1 - back) := by
  induction i generalizing depth with
  | zero => rfl
  | succ i ih =>
    have htake : (t.take (i + 1)).reverse = t[i] :: (t.take i).reverse := by
      rw [List.take_succ_eq_append_getElem h, List.reverse_append]
      rfl
    have hshift (found : Option Nat) :
        (found.map (· + 1)).map (fun back => i + 1 - 1 - back) =
          found.map fun back => i - 1 - back := by
      rw [Option.map_map]
      refine congrArg (Option.map · found) (funext fun back => ?_)
      simp only [Function.comp_apply]
      omega
    rw [openerBelow, get_eq (List.getElem?_eq_getElem h), pure_bind, htake, unmatchedOpener?.eq_def]
    dsimp only
    split
    · rw [ih (Nat.le_of_succ_le h), hshift]
    · split
      · cases depth with
        | zero => rfl
        | succ d =>
          rw [if_neg (Nat.succ_ne_zero d), sub_eq (Nat.le_add_left 1 d), pure_bind,
            Nat.add_sub_cancel, ih (Nat.le_of_succ_le h), hshift]
      · rw [ih (Nat.le_of_succ_le h), hshift]

theorem openerAbove_eq (bracket : Char) (p : Position) :
    openerAbove b bracket p = pure (b.openerAbove? bracket p) := by
  rw [openerAbove, Buffer.openerAbove?]
  rcases b.pairOf? bracket with _ | ⟨opener, closer⟩
  · rfl
  · dsimp only
    rw [charIndex_eq, pure_bind]
    cases hindex : b.charIndex? p with
    | error e => rfl
    | ok i =>
      have hbelow : openerBelow opener closer b.text 0 i
          = pure (b.openerBelow? opener closer i) :=
        openerBelow_eq opener closer (Buffer.charIndex?_le_length hindex) 0
      simp only [hbelow, pure_bind, Except.toOption, Option.bind_eq_bind, Option.bind_some]
      cases b.openerBelow? opener closer i with
      | none => rfl
      | some j =>
        dsimp only
        rw [positionAt_eq, pure_bind]
        rfl

end

end Keystroke.Checked
