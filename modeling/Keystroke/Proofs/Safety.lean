import Keystroke.Proofs.Accepted
import Keystroke.Session

/-!
# Safety of sessions

A session is safe when its text has no bare carriage return and both ends of its cursor
are inside the buffer. What is asked of a step depends on the session it is made in
(`Session.Admits`) : the texts it is given have no bare carriage return either, and when
it is an operation, the context is tame at that time. Such a step is never refused and
leaves the session safe (`Session.step_safe`), so a run of them never comes upon a command
that is refused (`Session.runAll_safe`).
-/

namespace Keystroke

open Text Outcome

/-! ## Steps -/

namespace EditStep

/-- What an operation may be given : texts without a bare carriage return, and ranges
inside the buffer. Lines are not joined under a selection on one line. -/
def Admissible (b : Buffer) (s : Selection) : EditStep → Prop
  | type t | typePlain t | replacePrevious t _ | paste t _ => NoBareReturn t
  | enter _ (some r) => b.Covers r
  | joinLines => s.isEmpty = true ∨ s.isSingleLine = false
  | enter _ none | tab | indent | outdent | openAbove | openBelow | splitLine => True

/-- Operations make commands that a safe buffer accepts. -/
theorem acceptedBy_outcome {ctx : Context} {b : Buffer} {s : Selection}
    (hv : ctx.view = b.view) (ht : ctx.Tame) (hs : b.Safe s) {e : EditStep}
    (h : e.Admissible b s) : (e.outcome ctx s).AcceptedBy b := by
  cases e with
  | type t => exact Context.acceptedBy_type ht hs hv h
  | typePlain t => exact acceptedBy_typePlain hs h
  | replacePrevious t count => exact acceptedBy_replacePrevious hs h count
  | paste t wholeLine => exact Context.acceptedBy_paste hs h wholeLine
  | enter keep range? =>
    cases range? with
    | none => exact Context.acceptedBy_enter ht hs.noBareReturn hs.covers keep
    | some r => exact Context.acceptedBy_enter ht hs.noBareReturn h keep
  | tab => exact Context.acceptedBy_tab ht hs hv
  | indent => exact Context.acceptedBy_shift hs hv _
  | outdent => exact Context.acceptedBy_shift hs hv _
  | openAbove => exact Context.acceptedBy_openAbove ht hs hv
  | openBelow => exact Context.acceptedBy_openBelow ht hs hv
  | splitLine => exact Context.acceptedBy_breakLine ht hs.noBareReturn hs.covers true
  | joinLines => exact Context.acceptedBy_joinLines hs hv h

end EditStep

/-- The nearest place inside a buffer is inside. -/
theorem Buffer.valid_clamp (b : Buffer) (p : Position) : b.Valid (b.clamp p) := by
  have hcount := b.lineCount_pos
  unfold clamp
  simp only [Valid, View.maxColumn, View.lineLength, view_lineContent]
  omega

namespace Session

variable {s : Session}

/-- The text has no bare carriage return, and the cursor is inside the buffer. -/
def Safe (s : Session) : Prop :=
  s.buffer.Safe s.cursor

/-- What a step may be given in a session. -/
def Admits (s : Session) : Step → Prop
  | .edit e => s.context.Tame ∧ e.Admissible s.buffer s.cursor
  | .select c => s.buffer.Valid c.anchor ∧ s.buffer.Valid c.head
  | .selectInside _ | .setTokens _ _ | .setConfig _ | .setRules _ => True

/-- What the steps of a run may be given, each in the session before it. -/
def AdmitsAll : Session → List Step → Prop
  | _, [] => True
  | s, e :: es => s.Admits e ∧ AdmitsAll (s.step e).1 es

theorem run_of_acceptedBy (hs : s.Safe) {o : Outcome} (ho : o.AcceptedBy s.buffer) :
    (s.run o).2.refused? = none ∧ (s.run o).1.Safe := by
  rcases hc : o.command? with _ | c
  · simp only [run, hc, true_and]
    exact hs
  · obtain ⟨b', cursor, happly, hsafe⟩ := ho c hc
    rw [run_of_ok hc happly]
    exact ⟨rfl, hsafe⟩

/-- A step that is admitted is not refused and keeps a session safe. -/
theorem step_safe (hs : s.Safe) {e : Step} (h : s.Admits e) :
    (s.step e).2.refused? = none ∧ (s.step e).1.Safe := by
  cases e with
  | edit e => exact run_of_acceptedBy hs (e.acceptedBy_outcome rfl h.1 hs h.2)
  | select c => exact ⟨rfl, hs.noBareReturn, h.1, h.2⟩
  | selectInside c =>
    exact ⟨rfl, hs.noBareReturn, s.buffer.valid_clamp _, s.buffer.valid_clamp _⟩
  | setTokens line tokens => exact ⟨rfl, hs.noBareReturn, hs.anchor, hs.head⟩
  | setConfig c => exact ⟨rfl, hs⟩
  | setRules r => exact ⟨rfl, hs⟩

/-- In a run from a safe session whose steps are all admitted, no command is refused, and
after every step the cursor is inside the buffer and no carriage return is bare. -/
theorem runAll_safe (hs : s.Safe) {steps : List Step} (h : s.AdmitsAll steps) :
    ∀ pre e post, steps = pre ++ e :: post →
      ((s.runAll pre).step e).2.refused? = none ∧ ((s.runAll pre).step e).1.Safe := by
  induction steps generalizing s with
  | nil => simp
  | cons e' steps ih =>
    obtain ⟨he, h⟩ := h
    obtain ⟨hnone, hsafe⟩ := step_safe hs he
    rintro (_ | ⟨e₀, pre⟩) e post heq
    · obtain ⟨rfl, rfl⟩ := List.cons.inj heq
      exact ⟨hnone, hsafe⟩
    · obtain ⟨rfl, hsteps⟩ := List.cons.inj heq
      exact ih hsafe h pre e post hsteps

end Session

/-! ## Runs of operations -/

namespace Session

variable {s : Session}

theorem config_run (s : Session) (o : Outcome) : (s.run o).1.config = s.config := by
  unfold run
  split
  · rfl
  · split <;> rfl

theorem rules_run (s : Session) (o : Outcome) : (s.run o).1.rules = s.rules := by
  unfold run
  split
  · rfl
  · split <;> rfl

theorem config_step_edit (s : Session) (e : EditStep) :
    (s.step (.edit e)).1.config = s.config :=
  s.config_run _

theorem rules_step_edit (s : Session) (e : EditStep) : (s.step (.edit e)).1.rules = s.rules :=
  s.rules_run _

/-- Operations that are admissible anywhere are admitted one after the other, under settings
and rules that are tame on every view. -/
theorem admitsAll_edits (ht : ∀ v, (⟨s.config, v, s.rules⟩ : Context).Tame) {es : List EditStep}
    (h : ∀ e ∈ es, ∀ b c, e.Admissible b c) : s.AdmitsAll (es.map .edit) := by
  induction es generalizing s with
  | nil => trivial
  | cons e es ih =>
    refine ⟨⟨ht _, h e (by simp) _ _⟩, ih (fun v => ?_) fun e' he' => h e' (by simp [he'])⟩
    have hconfig : (s.step (.edit e)).1.config = s.config := s.config_run _
    have hrules : (s.step (.edit e)).1.rules = s.rules := s.rules_run _
    rw [hconfig, hrules]
    exact ht v

/-- A selection wrapped, indented and broken, from a text with both kinds of line break. -/
theorem runAll_safe_wrapped :
    let s : Session := ⟨.standard, BracketRules.standard.toRules,
      .ofText ['a', '\r', '\n', 'b', '\n'], ⟨⟨2, 2⟩, ⟨1, 1⟩⟩, 0⟩
    let pre : List Step := [.edit (.type ['(']), .edit .indent]
    ((s.runAll pre).step (.edit (.enter false none))).2.refused? = none ∧
      ((s.runAll pre).step (.edit (.enter false none))).1.Safe := by
  intro s pre
  have hs : s.Safe := ⟨by decide, by decide, by decide⟩
  have ht : ∀ v, (⟨s.config, v, s.rules⟩ : Context).Tame :=
    BracketRules.tame (Config.pairsUnbroken_ofStyle _) (by rintro _ _ ⟨⟩)
  have hes : ∀ e ∈ [EditStep.type ['('], .indent, .enter false none], ∀ b c,
      e.Admissible b c := by
    intro e he b c
    simp only [List.mem_cons, List.not_mem_nil, or_false] at he
    rcases he with rfl | rfl | rfl
    · exact (by decide : NoBareReturn ['('])
    · trivial
    · trivial
  exact runAll_safe hs (admitsAll_edits ht hes) pre (.edit (.enter false none)) [] rfl

end Session

end Keystroke
