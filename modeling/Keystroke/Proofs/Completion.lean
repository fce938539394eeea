import Keystroke.Proofs.Electric

/-!
# Completions

An electric character may be completed with what the rules put in after it
(`Context.Completing`). The caret goes back over the completion by as many columns as it has
characters. That leads right behind the character if the completion has no line breaks. If
it has some, it ends in a column that is not beyond its length
(`Position.traverse_of_not_unbroken`), so the caret stops at the start of the line the
completion ends on, below the character (`Context.applies_completing`).
-/

namespace Keystroke

open Text Position

namespace Position

theorem column_traverse_le (p : Position) (t : Text) :
    (p.traverse t).column ≤ p.column + t.length := by
  fun_induction traverse p t with
  | case1 p => exact Nat.le_refl _
  | case2 p t ih =>
    simp only [List.length_cons] at ih ⊢
    omega
  | case3 p c t _ _ ih =>
    simp only [List.length_cons] at ih ⊢
    omega
  | case4 p c t _ _ ih =>
    simp only [List.length_cons] at ih ⊢
    omega

/-- A text with line breaks leads below the line it starts on, into a column that is not
beyond its length. -/
theorem traverse_of_not_unbroken {t : Text} (ht : ¬Unbroken t) (p : Position) :
    p.line < (p.traverse t).line ∧ (p.traverse t).column ≤ t.length := by
  rcases unbroken_or_exists_break t with hu | ⟨s, e, u, rfl, hs, he, hf⟩
  · exact absurd hu ht
  · have hlength : 0 < e.length := List.length_pos_iff.mpr he.ne_nil
    have hline := line_le_traverse ⟨p.line + 1, 1⟩ u
    have hcolumn := column_traverse_le ⟨p.line + 1, 1⟩ u
    rw [List.append_assoc, traverse_unbroken_append hs, traverse_break_append he hf]
    simp only [List.length_append] at hline hcolumn ⊢
    omega

end Position

/-- A caret that goes back over the end of an inserted text with line breaks stops at the
start of the line the text ends on. -/
theorem Placement.cursorAfter_back_of_not_unbroken {r : Range} (hline : 1 ≤ r.start.line)
    {s t : Text} (hs : Unbroken s) (ht : ¬Unbroken t) :
    (offset 0 (-(t.length : Int))).cursorAfter ⟨r, s ++ t⟩ =
      .caret ⟨(r.start.traverse t).line, 1⟩ := by
  obtain ⟨hbelow, hcolumn⟩ := traverse_of_not_unbroken ht r.start
  have hend : r.start.traverse (s ++ t) = r.start.traverse t := by
    rw [traverse_unbroken_append hs]
    exact traverse_of_line_ne (Nat.ne_of_gt hbelow) _
  have hback : moveCoordinate (r.start.traverse t).column (-(t.length : Int)) = 1 :=
    Nat.le_antisymm (moveCoordinate_le (Nat.le_refl 1) (by omega)) (one_le_moveCoordinate _ _)
  rw [cursorAfter, TextEdit.insertedEnd, hend, Position.offset, moveCoordinate_zero (by omega),
    hback]

namespace Context

/-- A character typed at a caret is completed with a text. No other reading takes it, and the
rules put the text in after it. -/
structure Completing (ctx : Context) (p : Position) (c : Char) (t : Text) : Prop where
  not_break : isLineBreak c = false
  not_overtype : ctx.overtype? (.caret p) c = none
  not_closePair : ctx.closePair? (.caret p) c = none
  electric : ctx.config.isElectric c = true
  action : ∃ a, ctx.rules.electric? c (ctx.view.lineTokens p.line) p.column = .ok (some a) ∧
    a.append? = some t

variable {ctx : Context} {b : Buffer} {p : Position} {c : Char} {t : Text}

theorem Completing.type (h : ctx.Completing p c t) :
    ctx.type (.caret p) [c] = complete (.caret p) c t := by
  obtain ⟨⟨append?, alignWith?⟩, haction, rfl⟩ := h.action
  refine type_of_readings h.not_break h.not_overtype h.not_closePair ?_
  rw [electric?_caret h.electric, electricAction?_eq_some_iff.mpr haction]

/-- The character and its completion are put in at the caret. The caret is right behind the
character exactly if the completion has no line breaks; otherwise it is at the start of the
line the completion ends on, which is below. -/
theorem applies_completing (hp : b.Valid p) (h : ctx.Completing p c t) :
    ∃ before after b' cursor, b.Between p before after ∧
      (ctx.type (.caret p) [c]).Applies b b' cursor ∧
        b'.text = before ++ c :: t ++ after ∧
          (Unbroken t → cursor = .caret ⟨p.line, p.column + 1⟩) ∧
            (¬Unbroken t → p.line < (p.traverse t).line ∧
              cursor = .caret ⟨(p.traverse t).line, 1⟩) := by
  obtain ⟨before, after, hbetween⟩ := hp.exists_between
  have hc : Unbroken [c] := by simpa using h.not_break
  have happly := hbetween.cut.apply_replace (c :: t) (.offset 0 (-(t.length : Int)))
  refine ⟨before, after, _, _, hbetween, ⟨_, ?_, happly⟩, rfl, fun ht => ?_, fun ht => ?_⟩
  · rw [h.type, complete, Selection.range_caret]
    rfl
  · rw [← List.singleton_append, Placement.cursorAfter_back hp.1 hp.2.2.1 hc ht]
    exact congrArg Selection.caret (traverse_unbroken hc p)
  · rw [← List.singleton_append, Placement.cursorAfter_back_of_not_unbroken hp.1 hc ht]
    exact ⟨(traverse_of_not_unbroken ht p).1, rfl⟩

/-- A doc comment that is completed with its closing on the next line. -/
theorem applies_completing_docComment :
    let b := Buffer.ofText ['a', '\n', ' ', '/', '*', 'b']
    let rules := BracketRules.standard.withDocComment ['/', '*', '*'] ['\n', ' ', '*', '/']
    let ctx : Context := ⟨Config.standard.withElectricChars ['*'], b.view, rules.toRules⟩
    ∃ before after b' cursor, b.Between ⟨2, 4⟩ before after ∧
      (ctx.type (.caret ⟨2, 4⟩) ['*']).Applies b b' cursor ∧
        b'.text = before ++ '*' :: ['\n', ' ', '*', '/'] ++ after ∧
          (Unbroken ['\n', ' ', '*', '/'] → cursor = .caret ⟨2, 4 + 1⟩) ∧
            (¬Unbroken ['\n', ' ', '*', '/'] →
              2 < ((⟨2, 4⟩ : Position).traverse ['\n', ' ', '*', '/']).line ∧
                cursor =
                  .caret ⟨((⟨2, 4⟩ : Position).traverse ['\n', ' ', '*', '/']).line, 1⟩) := by
  intro b rules ctx
  have h : ctx.Completing ⟨2, 4⟩ '*' ['\n', ' ', '*', '/'] :=
    ⟨by decide, by decide, by decide, by decide, { append? := some _ }, rfl, rfl⟩
  exact applies_completing (by decide) h

/-- With its closing on the next line, an opened doc comment has the caret in front of the
closing's line, and not behind the character that completed it. -/
theorem type_docComment_lineFeed :
    let b := Buffer.ofText ['/', '*']
    let rules := BracketRules.standard.withDocComment ['/', '*', '*'] ['\n', ' ', '*', '/']
    let ctx : Context := ⟨Config.standard.withElectricChars ['*'], b.view, rules.toRules⟩
    b.Valid ⟨1, 3⟩ ∧ ctx.Completing ⟨1, 3⟩ '*' ['\n', ' ', '*', '/'] ∧
      ∃ b' cursor, (ctx.type (.caret ⟨1, 3⟩) ['*']).Applies b b' cursor ∧
        cursor = .caret ⟨2, 1⟩ ∧ cursor ≠ .caret ⟨1, 3 + 1⟩ := by
  intro b rules ctx
  refine ⟨by decide, ⟨by decide, by decide, by decide, by decide, { append? := some _ }, rfl, rfl⟩,
    _, .caret ⟨2, 1⟩, ⟨_, rfl, rfl⟩, rfl, by decide⟩

end Context

end Keystroke
