import Keystroke.Proofs.Safety
import Keystroke.Proofs.TypedCharacter

/-!
# Closing what closed itself

An opener that puts in its closer leaves the caret in front of it. Whatever text goes in
there, the closer is still right after the caret when it is typed, and is stepped over. So
the opener, the text and the closer leave what typing all of it at once would have
(`Session.runAll_closePair`). Every closer that is put in is known as one, as settings are
built (`Config.Built`).
-/

namespace Keystroke

open Text Position

/-! ## Stepping over a character -/

namespace Buffer.Between

variable {b : Buffer} {p : Position} {before after : Text} {c : Char}

/-- The character after a caret that is not in the last column there is. -/
theorem cut_next (h : b.Between p before (c :: after)) (hc : Unbroken [c])
    (hroom : p.column < maxCoordinate) :
    b.Cut (.ofEnds p (p.offset 0 1)) before [c] after := by
  have hle : p ≤ ⟨p.line, p.column + 1⟩ := .inr ⟨rfl, Nat.le_succ _⟩
  have hnext : origin.traverse (before ++ [c]) = ⟨p.line, p.column + 1⟩ := by
    rw [traverse_append (hc.not_fuses_right before), h.position, traverse_unbroken hc]
    rfl
  rw [offset_next h.valid.1 hroom, Range.ofEnds_of_le hle]
  refine ⟨by simp [h.text], h.position, hnext, h.not_fuses, ?_⟩
  rw [fuses_append_left (List.cons_ne_nil c [])]
  exact hc.not_fuses after

/-- Typing a character in its own place moves the caret behind it. -/
theorem apply_type_next (h : b.Between p before (c :: after)) (hc : Unbroken [c])
    (hroom : p.column < maxCoordinate) :
    b.apply (.type (.ofEnds p (p.offset 0 1)) [c]) =
      .ok ({ b with text := before ++ [c] ++ after, tokens := [] }, .caret (p.traverse [c])) := by
  have hcut := h.cut_next hc hroom
  have happly := hcut.apply_replace [c] .followText
  have hstart : (Range.ofEnds p (p.offset 0 1)).start = p := by rw [← hcut.start, h.position]
  rw [Command.type, happly, Placement.cursorAfter, TextEdit.insertedEnd, hstart]

end Buffer.Between

namespace Context

variable {ctx : Context} {p : Position} {c : Char}

/-- A closer in front of the caret is stepped over when it is typed. -/
theorem type_closer (hc : isLineBreak c = false) (hclosing : ctx.config.autoClosing = true)
    (hcloser : ctx.config.isCloser c = true) (hafter : ctx.charAfter? p = some c) :
    ctx.type (.caret p) [c] =
      (Outcome.ofCommand (.type (.ofEnds p (p.offset 0 1)) [c])).withBoundaryBefore := by
  have hover : ctx.overtype? (.caret p) c = some
      (Outcome.ofCommand (.type (.ofEnds p (p.offset 0 1)) [c])).withBoundaryBefore := by
    unfold overtype?
    simp [Selection.caret, Selection.isEmpty, hclosing, hcloser, hafter]
  rw [type, interpret?, typeBreak?_eq_none hc, hover]
  rfl

end Context

/-! ## Runs -/

namespace Session

variable {s : Session} {p : Position} {before after t : Text} {opener closer : Char}

/-- An opener that closes itself puts in both characters, and the caret is between them. -/
theorem editsTo_opener (hcursor : s.cursor = .caret p) (h : s.buffer.Between p before after)
    (ho : isLineBreak opener = false) (hcl : isLineBreak closer = false)
    (hcloser : s.config.closerOf? opener = some closer)
    (hpair : s.context.closePair? s.cursor opener = some (s.context.type s.cursor [opener])) :
    s.EditsTo (.type [opener]) (before ++ [opener] ++ closer :: after)
      (.caret (p.traverse [opener])) := by
  obtain ⟨closer', -, hcloser', htype⟩ := Context.exists_of_closePair? hpair
  obtain rfl : closer' = closer := Option.some.inj (hcloser'.symm.trans hcloser)
  have hou : Unbroken [opener] := by simpa using ho
  have hcu : Unbroken [closer'] := by simpa using hcl
  have happly := h.apply_typeOffset_back hou hcu
  have hdone : ((EditStep.type [opener]).outcome s.context s.cursor).Applies s.buffer _ _ :=
    ⟨_, by rw [EditStep.outcome, htype, hcursor, Selection.range_caret]; rfl, happly⟩
  have hedits := editsTo_of_applies hdone
  simpa using hedits

/-- A closer typed in front of itself leaves the text as it is, and the caret behind it. -/
theorem editsTo_closer (hcursor : s.cursor = .caret p)
    (h : s.buffer.Between p before (closer :: after)) (hcl : isLineBreak closer = false)
    (hclosing : s.config.autoClosing = true) (hcloser : s.config.isCloser closer = true)
    (hroom : p.column < maxCoordinate) :
    s.EditsTo (.type [closer]) (before ++ [closer] ++ after) (.caret (p.traverse [closer])) := by
  have hafter : s.context.charAfter? p = some closer := h.getElem?_column hcl
  have htype : s.context.type (.caret p) [closer] = _ :=
    Context.type_closer hcl hclosing hcloser hafter
  have happly := h.apply_type_next (by simpa using hcl) hroom
  have hdone : ((EditStep.type [closer]).outcome s.context s.cursor).Applies s.buffer _ _ :=
    ⟨_, by rw [EditStep.outcome, hcursor, htype]; rfl, happly⟩
  exact editsTo_of_applies hdone

/-- An opener that closes itself, any text and the closer leave the text and the caret that
typing all of it at once does. Columns are 64-bit numbers, and the closer's must not be the
largest, which no text in memory reaches. -/
theorem runAll_closePair (hcursor : s.cursor = .caret p) (hp : s.buffer.Valid p)
    (hconfig : s.config.Built) (hpairs : s.config.PairsUnbroken)
    (hcloser : s.config.closerOf? opener = some closer)
    (hpair : s.context.closePair? s.cursor opener = some (s.context.type s.cursor [opener]))
    (t : Text) (hroom : (p.traverse (opener :: t)).column < maxCoordinate) :
    s.SameAfter [.edit (.type [opener]), .edit (.typePlain t), .edit (.type [closer])]
      [.edit (.typePlain (opener :: t ++ [closer]))] := by
  obtain ⟨ho, hcl⟩ := hpairs opener closer (.inl hcloser)
  obtain ⟨_, hclosing, -⟩ := Context.exists_of_closePair? hpair
  have hou : Unbroken [opener] := by simpa using ho
  have hcu : Unbroken [closer] := by simpa using hcl
  obtain ⟨before, after, h₀⟩ := hp.exists_between
  have hne (u : Text) : ¬Fuses u (closer :: after) := by
    rw [← List.singleton_append, fuses_append_right (List.cons_ne_nil closer [])]
    exact hcu.not_fuses_right u
  have hstart : ¬Fuses (before ++ [opener]) t := by
    rw [fuses_append_left (List.cons_ne_nil opener [])]
    exact hou.not_fuses t
  have hreach : (p.traverse [opener]).traverse t = p.traverse (opener :: t) :=
    (traverse_append (hou.not_fuses t) p).symm
  -- the caret of every step is between what was typed so far and the closer
  have e₁ := editsTo_opener hcursor h₀ ho hcl hcloser hpair
  have h₁ := h₀.insert e₁.text (hou.not_fuses_right before) (hne _)
  have e₂ := editsTo_typePlain_caret e₁.cursor h₁ t
  have h₂ := h₁.insert e₂.text hstart (hne _)
  have hconfig₂ := (config_step_edit _ (.typePlain t)).trans (s.config_step_edit (.type [opener]))
  have hclosing₂ := (congrArg Config.autoClosing hconfig₂).trans hclosing
  have hcloser₂ := (congrArg (·.isCloser closer) hconfig₂).trans
    (hconfig.isCloser_of_closerOf? hcloser)
  have e₃ := editsTo_closer e₂.cursor h₂ hcl hclosing₂ hcloser₂ (by rwa [hreach])
  have e := editsTo_typePlain_caret hcursor h₀ (opener :: t ++ [closer])
  refine ⟨⟨e₁.unrefused, e₂.unrefused, e₃.unrefused, trivial⟩, ⟨e.unrefused, trivial⟩, ?_, ?_⟩
  · refine e₃.text.trans (.trans ?_ e.text.symm)
    simp
  · refine e₃.cursor.trans (.trans ?_ e.cursor.symm)
    rw [traverse_append (hcu.not_fuses_right _), hreach]

/-- Brackets around a text with a line break. -/
theorem runAll_closePair_brackets :
    let s : Session := ⟨.standard, BracketRules.standard.toRules, .ofText ['a', ' ', 'b'],
      .caret ⟨1, 3⟩, 0⟩
    s.SameAfter [.edit (.type ['(']), .edit (.typePlain ['x', '\n']), .edit (.type [')'])]
      [.edit (.typePlain ['(', 'x', '\n', ')'])] := by
  intro s
  have hcloser : s.config.closerOf? '(' = some ')' := by decide
  have hpair : s.context.closePair? s.cursor '(' = some (s.context.type s.cursor ['(']) := by
    decide +kernel
  exact runAll_closePair rfl (by decide) (.ofStyle ⟨4, true⟩)
    (Config.pairsUnbroken_ofStyle ⟨4, true⟩) hcloser hpair ['x', '\n'] (by decide)

end Session

end Keystroke
