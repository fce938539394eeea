import Keystroke.Proofs.TypedCharacter

/-!
# Electric characters

A character is read as electric if no reading before that applies
(`Context.type_of_readings`), so if it is no line break, no closer in front of itself, and
opens no pair (`Context.type_of_electric?`). Rules
for bracketed languages ask for the opener of a closer that has only white space in front of
it (`BracketRules.electric?_closer`), and its line is aligned with the line of the opener
above it unless that is the same line (`Context.align?_eq_some`).
-/

namespace Keystroke

open Text Position

namespace Context

variable {ctx : Context} {p : Position} {c opener : Char} {o : Outcome}

/-- A character is read as electric if no reading before that takes it. -/
theorem type_of_readings (hc : isLineBreak c = false) (hover : ctx.overtype? (.caret p) c = none)
    (hpair : ctx.closePair? (.caret p) c = none) (h : ctx.electric? (.caret p) c = some o) :
    ctx.type (.caret p) [c] = o := by
  have hwrap : ctx.wrap? (.caret p) c = none := by simp [wrap?, Selection.isEmpty, Selection.caret]
  rw [type, interpret?, typeBreak?_eq_none hc, hover, hpair, hwrap, h]
  rfl

/-- An electric character is read as one if it is no closer in front of itself and opens no
pair. -/
theorem type_of_electric? (hc : isLineBreak c = false) (hafter : ctx.charAfter? p ≠ some c)
    (hcloser : ctx.config.closerOf? c = none) (h : ctx.electric? (.caret p) c = some o) :
    ctx.type (.caret p) [c] = o := by
  have hover : ctx.overtype? (.caret p) c = none := by
    refine if_neg ?_
    simp only [Bool.and_eq_true, beq_iff_eq, not_and]
    exact fun _ => hafter
  have hpair : ctx.closePair? (.caret p) c = none := by
    rw [closePair?, hcloser]
    split <;> rfl
  exact type_of_readings hc hover hpair h

/-- The line of a position is aligned with the line of the opener above it. -/
theorem align?_eq_some {found : Range} (hfound : ctx.view.openerAbove? opener p = some found)
    (hline : found.start.line ≠ p.line) :
    ctx.align? p opener c = some (Outcome.ofCommand (.type (.onLine p.line 1 p.column)
      (ctx.config.normalize (ctx.view.lineContent found.start.line).leadingIndent
        ++ ctx.contentBefore p ++ [c]))).withBoundaryAfter := by
  rw [align?, hfound]
  exact if_neg hline

/-- At a caret the rules are asked what an electric character triggers there. -/
theorem electric?_caret (helectric : ctx.config.isElectric c = true) :
    ctx.electric? (.caret p) c =
      match ctx.electricAction? c p with
      | some { append? := some append, .. } => some (complete (.caret p) c append)
      | some { append? := none, alignWith? := some opener } => ctx.align? p opener c
      | _ => none := by
  have hif : (ctx.config.isElectric c && (Selection.caret p).isEmpty) = true := by
    simp [helectric, Selection.isEmpty, Selection.caret]
  rw [electric?, if_pos hif]
  rfl

theorem electric?_of_alignWith? (helectric : ctx.config.isElectric c = true)
    (haction : ctx.electricAction? c p = some { alignWith? := some opener }) :
    ctx.electric? (.caret p) c = ctx.align? p opener c := by
  rw [electric?_caret helectric, haction]

end Context

namespace BracketRules

variable {r : BracketRules} {opener closer : Char}

/-- A closer with nothing but white space in front of it asks for its opener. -/
theorem electric?_closer (hdoc : r.docComment = none) (hopener : r.openerOf? closer = some opener)
    {text : Text} {column : Nat} (hblank : isBlankLine (text.take (column - 1)) = true) :
    r.electric? closer (.plain text) column = .ok (some { alignWith? := some opener }) := by
  have hcheck : (LineTokens.plain text).check = .ok () := rfl
  have hcomplete : r.completeDocComment? closer (text.take (column - 1)) = none := by
    rw [completeDocComment?, hdoc]
  have hbefore : (LineTokens.plain text).text.take (column - 1) = text.take (column - 1) := rfl
  rw [electric?, hcheck]
  simp only [Bind.bind, Except.bind, pure, Except.pure, hbefore]
  rw [hcomplete]
  simp only [hopener, hblank, if_true]

end BracketRules

end Keystroke
