import Keystroke.Session

/-!
# Rules that fail

Two of the three queries to the language rules may fail. `LanguageRules.declining` says no
where the rules fail, and nothing that is seen of a session tells the two apart : every
operation has the same outcome (`EditStep.outcome_declining`), so every step answers the same
and leaves the same session behind, its rules aside (`Session.step_declining`), and so does
every run (`Session.trace_eq_trace_declining`). If the rules have no answer to anything, a
typed character steps over a closer, wraps a selection, or goes in as it is
(`Context.type_of_fails`).
-/

namespace Keystroke

/-! ## Rules that decline -/

namespace LanguageRules

/-- The answer to a query, or another answer if the query fails. -/
def answerOr {α : Type} (other : α) : Except RuleError α → Except RuleError α
  | .ok a => .ok a
  | .error _ => .ok other

/-- The rules that say no where these fail. -/
def declining (r : LanguageRules) : LanguageRules where
  enter? := r.enter?
  autoCloses c l column := answerOr false (r.autoCloses c l column)
  electric? c l column := answerOr none (r.electric? c l column)

/-- No answer to a line break, and every other query fails. -/
structure Fails (r : LanguageRules) : Prop where
  enter : ∀ v line column, r.enter? v line column = none
  autoCloses : ∀ c l column, ∃ e, r.autoCloses c l column = .error e
  electric : ∀ c l column, ∃ e, r.electric? c l column = .error e

theorem answerOr_answerOr {α : Type} (other : α) (x : Except RuleError α) :
    answerOr other (answerOr other x) = answerOr other x := by
  cases x <;> rfl

theorem declining_declining (r : LanguageRules) : r.declining.declining = r.declining := by
  simp only [declining, answerOr_answerOr]

theorem fails_constant (e e' : RuleError) : (constant none (.error e) (.error e')).Fails where
  enter _ _ _ := rfl
  autoCloses _ _ _ := ⟨e, rfl⟩
  electric _ _ _ := ⟨e', rfl⟩

end LanguageRules

/-! ## Operations -/

namespace Context

variable (ctx : Context)

/-- The same settings and the same view, under rules that decline. -/
def declining : Context :=
  { ctx with rules := ctx.rules.declining }

theorem rulesClose_declining (c : Char) (p : Position) :
    ctx.declining.rulesClose c p = ctx.rulesClose c p := by
  have hquery : ctx.declining.rules.autoCloses c (ctx.view.lineTokens p.line) p.column =
      LanguageRules.answerOr false
        (ctx.rules.autoCloses c (ctx.view.lineTokens p.line) p.column) := rfl
  have hview : ctx.declining.view = ctx.view := rfl
  rw [rulesClose, rulesClose, hview, hquery]
  cases ctx.rules.autoCloses c (ctx.view.lineTokens p.line) p.column <;> rfl

theorem electricAction?_declining (c : Char) (p : Position) :
    ctx.declining.electricAction? c p = ctx.electricAction? c p := by
  have hquery : ctx.declining.rules.electric? c (ctx.view.lineTokens p.line) p.column =
      LanguageRules.answerOr none
        (ctx.rules.electric? c (ctx.view.lineTokens p.line) p.column) := rfl
  have hview : ctx.declining.view = ctx.view := rfl
  rw [electricAction?, electricAction?, hview, hquery]
  cases ctx.rules.electric? c (ctx.view.lineTokens p.line) p.column <;> rfl

theorem closePair?_declining (s : Selection) (c : Char) :
    ctx.declining.closePair? s c = ctx.closePair? s c := by
  simp only [closePair?, rulesClose_declining]
  rfl

theorem electric?_declining (s : Selection) (c : Char) :
    ctx.declining.electric? s c = ctx.electric? s c := by
  simp only [electric?, electricAction?_declining]
  rfl

/-- The readings that ask a query which may fail are the same, and the others do not ask. -/
theorem type_declining (s : Selection) (t : Text) : ctx.declining.type s t = ctx.type s t := by
  have hinterpret (c : Char) : ctx.declining.interpret? s c = ctx.interpret? s c := by
    simp only [interpret?, closePair?_declining, electric?_declining]
    rfl
  simp only [type, hinterpret]

end Context

/-- No operation tells rules that fail from rules that decline. -/
theorem EditStep.outcome_declining (e : EditStep) (ctx : Context) (s : Selection) :
    e.outcome ctx.declining s = e.outcome ctx s := by
  cases e with
  | type t => exact ctx.type_declining s t
  | _ => rfl

/-! ## Runs -/

/-- A step that sets rules sets the ones that decline. -/
def Step.declining : Step → Step
  | setRules r => setRules r.declining
  | edit e => edit e
  | select c => select c
  | selectInside c => selectInside c
  | setTokens line tokens => setTokens line tokens
  | setConfig c => setConfig c

theorem Step.declining_declining (e : Step) : e.declining.declining = e.declining := by
  cases e with
  | setRules r => exact congrArg setRules r.declining_declining
  | _ => rfl

/-- What is seen of a step : what it answers, and what it leaves. -/
structure Seen where
  report : Report
  buffer : Buffer
  cursor : Selection
  undoStops : Nat

namespace Session

variable (s : Session)

/-- What is seen of a run, step by step. -/
def trace : Session → List Step → List Seen
  | _, [] => []
  | s, e :: es =>
    let (s', report) := s.step e
    ⟨report, s'.buffer, s'.cursor, s'.undoStops⟩ :: trace s' es

/-- The same session under rules that decline. -/
def declining : Session :=
  { s with rules := s.rules.declining }

theorem declining_declining : s.declining.declining = s.declining := by
  simp only [declining, LanguageRules.declining_declining]

theorem run_declining (o : Outcome) :
    s.declining.run o = ((s.run o).1.declining, (s.run o).2) := by
  rcases hc : o.command? with _ | c
  · simp only [run, hc]
    rfl
  · simp only [run, hc]
    cases happly : s.buffer.apply c with
    | ok result => simp only [declining, happly]
    | error e => simp only [declining, happly]

/-- A step answers the same under rules that decline, and keeps the two sessions alike. -/
theorem step_declining (e : Step) :
    s.declining.step e.declining = ((s.step e).1.declining, (s.step e).2) := by
  cases e with
  | edit e =>
    have houtcome : e.outcome s.declining.context s.cursor = e.outcome s.context s.cursor :=
      e.outcome_declining s.context s.cursor
    have hstep : s.declining.step (.edit e) =
        s.declining.run (e.outcome s.declining.context s.cursor) := rfl
    rw [Step.declining, hstep, houtcome, run_declining]
    rfl
  | _ => rfl

/-- A run is seen the same under rules that decline. -/
theorem trace_eq_trace_declining (steps : List Step) :
    s.trace steps = s.declining.trace (steps.map .declining) := by
  induction steps generalizing s with
  | nil => rfl
  | cons e steps ih =>
    rw [List.map_cons, trace, trace, step_declining]
    simp only [ih (s.step e).1]
    rfl

end Session

/-! ## Rules without answers -/

namespace Context

variable {ctx : Context}

/-- Without an answer from the rules, a typed character steps over a closer, wraps the
selection, or goes in as it is. -/
theorem type_of_fails (h : ctx.rules.Fails) (s : Selection) (c : Char) :
    ctx.type s [c] = ((ctx.overtype? s c).or (ctx.wrap? s c)).getD (.typePlain s [c]) := by
  have hbreak : ctx.typeBreak? s c = none := by
    have henter : ctx.enter false s.range = .noop := by rw [enter, h.enter]
    rw [typeBreak?, henter]
    exact ite_self none
  have hpair : ctx.closePair? s c = none := by
    have hclose : ctx.rulesClose c s.head = false := by
      obtain ⟨e, he⟩ := h.autoCloses c (ctx.view.lineTokens s.head.line) s.head.column
      rw [rulesClose, he]
    rw [closePair?, hclose]
    cases ctx.config.closerOf? c <;> simp
  have helectric : ctx.electric? s c = none := by
    have haction : ctx.electricAction? c s.head = none := by
      obtain ⟨e, he⟩ := h.electric c (ctx.view.lineTokens s.head.line) s.head.column
      rw [electricAction?, he]
    rw [electric?, haction]
    exact ite_self none
  rw [type, interpret?, hbreak, hpair, helectric]
  cases ctx.overtype? s c <;> cases ctx.wrap? s c <;> rfl

end Context

namespace Session

/-- Rules that fail cannot be told from rules that decline : in any run, every step answers the
same and leaves the same buffer, selection and number of undo stops, whether the steps that set
rules set the ones that fail or the ones that decline. If the rules have no answer to anything,
a character goes in as it is unless it steps over a closer or wraps the selection. -/
theorem failing_eq_declining (s : Session) (steps : List Step) :
    s.declining.trace steps = s.trace steps ∧
      s.declining.trace (steps.map .declining) = s.trace steps ∧
        ∀ ctx : Context, ctx.rules.Fails → ∀ (cursor : Selection) (c : Char),
          ctx.overtype? cursor c = none → ctx.wrap? cursor c = none →
            ctx.type cursor [c] = .typePlain cursor [c] := by
  refine ⟨?_, ?_, fun ctx hfails cursor c hover hwrap => ?_⟩
  · rw [trace_eq_trace_declining, declining_declining, ← trace_eq_trace_declining]
  · exact (s.trace_eq_trace_declining steps).symm
  · rw [Context.type_of_fails hfails, hover, hwrap]
    rfl

/-- Two characters that rules with answers complete and align. -/
theorem failing_eq_declining_brackets :
    let r := LanguageRules.constant none (.error (.other [])) (.error (.malformedTokens 0 3))
    let s : Session := ⟨.standard, r, .ofText ['{', '\n', ' '], .caret ⟨2, 2⟩, 0⟩
    let steps : List Step := [.edit (.type ['(']), .setRules r, .edit (.type ['}'])]
    s.declining.trace steps = s.trace steps ∧
      s.declining.trace (steps.map .declining) = s.trace steps ∧
        s.context.type s.cursor ['('] = .typePlain s.cursor ['('] := by
  intro r s steps
  obtain ⟨hsame, hset, hplain⟩ := failing_eq_declining s steps
  have hover : s.context.overtype? s.cursor '(' = none := by decide
  have hwrap : s.context.wrap? s.cursor '(' = none := by decide
  have hfails : s.context.rules.Fails := LanguageRules.fails_constant _ _
  exact ⟨hsame, hset, hplain s.context hfails s.cursor '(' hover hwrap⟩

end Session

end Keystroke
