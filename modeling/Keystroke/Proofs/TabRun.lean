import Keystroke.Proofs.LineBreak
import Keystroke.Proofs.OneLine
import Keystroke.Proofs.Safety

/-!
# Tab after Tab

The good indentation of a line is computed anew at every Tab, but under rules for bracketed
languages it is read off the lines above (`Context.goodIndent_congr`), which Tab leaves
alone. So once a line starts with it and the caret is at its end, Tab is a jump, and the
same can be said of the line it leaves (`Session.Settled.tab`). On a blank line Tab
re-indents at most once for that reason, and every further one adds white space behind the
good indentation (`Session.tab_reindents_once`).
-/

namespace Keystroke

open Text

/-! ## What good indentation is read off -/

namespace View

variable {v v' : View}

theorem lastContentLine?_congr {count : Nat}
    (h : ∀ k < count, v.lineContent (k + 1) = v'.lineContent (k + 1)) :
    v.lastContentLine? count = v'.lastContentLine? count := by
  induction count with
  | zero => rfl
  | succ n ih =>
    rw [lastContentLine?, lastContentLine?, h n (Nat.lt_succ_self n),
      ih fun k hk => h k (Nat.lt_succ_of_lt hk)]

end View

namespace BracketRules

/-- The answer to a line break is read off its line. -/
theorem enter_congr (r : BracketRules) {v v' : View} {line : Nat}
    (h : v.lineContent line = v'.lineContent line) (column : Nat) :
    r.enter v line column = r.enter v' line column := by
  unfold enter
  rw [h]

theorem unbroken_goodIndent (r : BracketRules) {ctx : Context} (hrules : ctx.rules = r.toRules)
    (line : Nat) : Unbroken (ctx.goodIndent line) := by
  refine Context.unbroken_goodIndent (fun line column a ha => ?_) line
  rw [hrules] at ha
  cases ha
  exact r.unbroken_enter _ line column

end BracketRules

namespace Context

variable {ctx ctx' : Context} {r : BracketRules}

section

variable (hrules : ctx.rules = r.toRules) (hrules' : ctx'.rules = r.toRules)
  (hconfig : ctx'.config = ctx.config)

include hrules hrules' hconfig

theorem indentAfter_congr {line : Nat}
    (h : ctx'.view.lineContent line = ctx.view.lineContent line) :
    ctx'.indentAfter line = ctx.indentAfter line := by
  have hmax : ctx'.view.maxColumn line = ctx.view.maxColumn line := by
    rw [View.maxColumn, View.lineLength, h]
    rfl
  have henter : ctx'.rules.enter? ctx'.view line (ctx.view.maxColumn line) =
      ctx.rules.enter? ctx.view line (ctx.view.maxColumn line) := by
    rw [hrules, hrules']
    exact congrArg some (r.enter_congr h _)
  unfold indentAfter
  rw [hmax, henter, hconfig, h]

/-- The good indentation of a line is read off the lines above it. -/
theorem goodIndent_congr {line : Nat}
    (h : ∀ k, k + 1 < line → ctx'.view.lineContent (k + 1) = ctx.view.lineContent (k + 1)) :
    ctx'.goodIndent line = ctx.goodIndent line := by
  have habove : ctx'.view.contentAbove? line = ctx.view.contentAbove? line := by
    rw [View.contentAbove?_eq, View.contentAbove?_eq]
    exact View.lastContentLine?_congr fun k hk => h k (by omega)
  unfold goodIndent
  rw [habove]
  cases hc : ctx.view.contentAbove? line with
  | none => rfl
  | some above =>
    rw [View.contentAbove?_eq, View.lastContentLine?_eq_some_iff] at hc
    obtain ⟨k, rfl⟩ : ∃ k, above = k + 1 := ⟨above - 1, by omega⟩
    simp only [indentAfter_congr hrules hrules' hconfig (h k (by omega))]

end

/-! ## Tab at a caret -/

variable {p : Position}

/-- Tab at a caret re-indents the line or jumps. -/
theorem tab_caret (p : Position) : ctx.tab (.caret p) =
    match ctx.reindent? p.line with
    | some good => (Outcome.ofCommand
        (.type (.onLine p.line 1 (ctx.view.maxColumn p.line)) good)).withAutoWhitespace
    | none => .ofCommand (.type (.point p) (ctx.jumpText p)) := by
  have hempty : (Selection.caret p).isEmpty = true := by simp [Selection.caret, Selection.isEmpty]
  have hstart : (Selection.caret p).start = p := by
    rw [Selection.start, Selection.range_caret]
    rfl
  cases h : ctx.reindent? p.line with
  | none => simp only [tab, hempty, if_true, hstart, h, jump, Selection.range_caret]
  | some good => simp only [tab, hempty, if_true, hstart, h]

/-- White space is put in for the user only where a line is re-indented. -/
theorem exists_reindent? (h : (ctx.tab (.caret p)).isAutoWhitespace = true) :
    ∃ good, ctx.reindent? p.line = some good := by
  rw [tab_caret] at h
  cases hr : ctx.reindent? p.line with
  | none =>
    rw [hr] at h
    cases h
  | some good => exact ⟨good, rfl⟩

theorem reindent?_eq_none {line : Nat}
    (h : ctx.config.normalize (ctx.goodIndent line) <+: ctx.view.lineContent line) :
    ctx.reindent? line = none := by
  rw [reindent?]
  simp [h]

/-- Every line starts with nothing, so that is not what a line is re-indented with. -/
theorem ne_nil_of_reindent? {line : Nat} {good : Text} (h : ctx.reindent? line = some good) :
    good ≠ [] := by
  rintro rfl
  rw [reindent?_eq_none] at h
  · cases h
  · rw [eq_of_reindent? h]
    exact List.nil_prefix

theorem jumpText_ne_nil (p : Position) : ctx.jumpText p ≠ [] := by
  unfold jumpText
  split
  · have hpos (x : Nat) : 0 < tabWidthAt x ctx.config.tabSize :=
      tabWidthAt_pos ctx.config.tabSize_pos
    simpa using Nat.ne_of_gt (hpos _)
  · simp

end Context

/-! ## Runs -/

namespace Session

variable {s s' : Session} {r : BracketRules} {above below : List Line} {text e : Text}

/-- So many Tabs, one after the other. -/
def tabs (s : Session) (n : Nat) : Session :=
  s.runAll (List.replicate n (.edit .tab))

theorem tabs_succ (s : Session) (n : Nat) : s.tabs (n + 1) = ((s.tabs n).step (.edit .tab)).1 := by
  rw [tabs, runAll, List.replicate_succ', List.foldl_append]
  rfl

theorem tabs_succ' (s : Session) (n : Nat) : s.tabs (n + 1) = (s.step (.edit .tab)).1.tabs n := rfl

/-- A line between others, with the caret at its end. -/
structure AtLineEnd (s : Session) (above : List Line) (text e : Text) (below : List Line) :
    Prop where
  lines : s.buffer.lines = above ++ ⟨text, e⟩ :: below
  cursor : s.cursor = .caret ⟨above.length + 1, text.length + 1⟩

/-- Tab is a plain jump : it puts white space in at the caret, and not as the editor's own. -/
structure Jumps (s : Session) (w : Text) : Prop where
  outcome : s.context.tab s.cursor = .ofCommand (.type s.cursor.range w)
  not_auto : (s.context.tab s.cursor).isAutoWhitespace = false
  unrefused : (s.step (.edit .tab)).2.refused? = none
  ne_nil : w ≠ []
  allIndent : AllIndent w

/-- A line that starts with its good indentation, with the caret at its end. -/
structure Settled (s : Session) (r : BracketRules) (above : List Line) (text e : Text)
    (below : List Line) : Prop extends s.AtLineEnd above text e below where
  rules : s.rules = r.toRules
  indented : s.config.normalize (s.context.goodIndent (above.length + 1)) <+: text

/-- A line keeps its good indentation while the lines above it stay. -/
theorem goodIndent_of_lines {rest rest' : List Line} (hrules : s.rules = r.toRules)
    (hrules' : s'.rules = r.toRules) (hconfig : s'.config = s.config)
    (h : s.buffer.lines = above ++ rest) (h' : s'.buffer.lines = above ++ rest') :
    s'.context.goodIndent (above.length + 1) = s.context.goodIndent (above.length + 1) := by
  refine Context.goodIndent_congr hrules hrules' hconfig fun k hk => ?_
  have hk : k < above.length := Nat.lt_of_succ_lt_succ hk
  exact (Buffer.lineContent_of_lt h' hk).trans (Buffer.lineContent_of_lt h hk).symm

/-- Tab settles a line if the end of it is replaced by a text that gives it its good
indentation. -/
theorem step_tab_of_type {lead covered t : Text} (hrules : s.rules = r.toRules)
    (hlines : s.buffer.lines = above ++ ⟨lead ++ covered, e⟩ :: below)
    (hcommand : (s.context.tab s.cursor).command? =
      some (.type (.ofPart above lead covered) t))
    (ht : Unbroken t) (hne : t ≠ [])
    (hgood : s.config.normalize (s.context.goodIndent (above.length + 1)) <+: lead ++ t) :
    (s.step (.edit .tab)).2.refused? = none ∧
      (s.step (.edit .tab)).1.Settled r above (lead ++ t) e below := by
  have hcut : s.buffer.lines = above ++ ⟨lead ++ covered ++ [], e⟩ :: below := by
    rw [hlines, List.append_nil]
  obtain ⟨b', hlines', happly⟩ := Buffer.exists_type_ofPart hcut ht hne
  rw [List.append_nil] at hlines'
  have hconfig : (s.step (.edit .tab)).1.config = s.config := s.config_step_edit _
  have hrules' : (s.step (.edit .tab)).1.rules = r.toRules := (s.rules_step_edit _).trans hrules
  have hstep : s.step (.edit .tab) = _ := run_of_ok hcommand happly
  have hbuffer : (s.step (.edit .tab)).1.buffer = b' := by rw [hstep]
  have hsame := goodIndent_of_lines hrules hrules' hconfig hlines (hbuffer ▸ hlines')
  refine ⟨by rw [hstep], ⟨hbuffer ▸ hlines', by rw [hstep]⟩, hrules', ?_⟩
  rw [hconfig, hsame]
  exact hgood

/-- Tab settles a line it re-indents. -/
theorem step_tab_of_reindent? {p : Position} {content good : Text} (hrules : s.rules = r.toRules)
    (hcursor : s.cursor = .caret p) (hlines : s.buffer.lines = above ++ ⟨content, e⟩ :: below)
    (hline : p.line = above.length + 1) (h : s.context.reindent? p.line = some good) :
    (s.step (.edit .tab)).2.refused? = none ∧
      (s.step (.edit .tab)).1.Settled r above good e below := by
  have hcontent : s.context.view.lineContent p.line = content :=
    hline ▸ Buffer.lineContent_of_lines hlines
  have hgood : s.config.normalize (s.context.goodIndent p.line) = good :=
    Context.eq_of_reindent? h
  have hcommand : (s.context.tab s.cursor).command? =
      some (.type (.ofPart above [] content) good) := by
    rw [hcursor, Context.tab_caret, h, View.maxColumn, View.lineLength, hcontent, hline]
    rfl
  have hne : good ≠ [] := Context.ne_nil_of_reindent? h
  have hunbroken : Unbroken good :=
    hgood ▸ s.config.style.unbroken_normalize (r.unbroken_goodIndent hrules _)
  have hwhole : s.buffer.lines = above ++ ⟨[] ++ content, e⟩ :: below := hlines
  exact step_tab_of_type hrules hwhole hcommand hunbroken hne
    (by rw [← hline, hgood]; exact List.prefix_refl _)

/-- Tab jumps from the end of a line with its good indentation, and the line keeps it. -/
theorem Settled.tab (h : s.Settled r above text e below) :
    s.Jumps (s.context.jumpText s.cursor.head) ∧
      (s.step (.edit .tab)).1.Settled r above (text ++ s.context.jumpText s.cursor.head) e
        below := by
  have hcontent : s.context.view.lineContent (above.length + 1) = text :=
    Buffer.lineContent_of_lines h.lines
  have hnone : s.context.reindent? (above.length + 1) = none :=
    Context.reindent?_eq_none (by rw [hcontent]; exact h.indented)
  have htab : s.context.tab s.cursor =
      .ofCommand (.type s.cursor.range (s.context.jumpText s.cursor.head)) := by
    rw [h.cursor, Context.tab_caret, hnone, Selection.range_caret]
    rfl
  have hrange : s.cursor.range = .ofPart above text [] := by
    rw [h.cursor, Selection.range_caret, Range.ofPart_nil]
  have hne := s.context.jumpText_ne_nil s.cursor.head
  have hindent := s.context.allIndent_jumpText s.cursor.head
  have hlines : s.buffer.lines = above ++ ⟨text ++ [], e⟩ :: below := by
    rw [List.append_nil]
    exact h.lines
  have hcommand : (s.context.tab s.cursor).command? =
      some (.type (.ofPart above text []) (s.context.jumpText s.cursor.head)) := by
    rw [htab, hrange]
    rfl
  obtain ⟨hunrefused, hsettled⟩ := step_tab_of_type h.rules hlines hcommand hindent.unbroken hne
    (h.indented.trans (List.prefix_append _ _))
  exact ⟨⟨htab, by rw [htab]; rfl, hunrefused, hne, hindent⟩, hsettled⟩

/-- The white space put in by the Tab after so many. -/
def jumpAfter (s : Session) (n : Nat) : Text :=
  (s.tabs n).context.jumpText (s.tabs n).cursor.head

/-- A line with its good indentation keeps it under any number of Tabs. -/
theorem Settled.tabs (h : s.Settled r above text e below) (n : Nat) :
    (s.tabs n).Settled r above (text ++ (List.range n).flatMap s.jumpAfter) e below := by
  induction n with
  | zero =>
    rw [List.range_zero, List.flatMap_nil, List.append_nil]
    exact h
  | succ n ih =>
    rw [tabs_succ, List.range_succ, List.flatMap_append, List.flatMap_singleton,
      ← List.append_assoc]
    exact ih.tab.2

/-- Tab re-indents a blank line at most once. What it puts there is the good indentation in
the configured style, and every Tab after it is a jump from the end of the line. The other
lines stay as they are. -/
theorem tab_reindents_once {p : Position} (hrules : s.rules = r.toRules)
    (hcursor : s.cursor = .caret p) (hp : s.buffer.Valid p)
    (hauto : (s.context.tab s.cursor).isAutoWhitespace = true) :
    ∃ above content e below, s.buffer.lines = above ++ ⟨content, e⟩ :: below ∧
      p.line = above.length + 1 ∧ (s.step (.edit .tab)).2.refused? = none ∧
        ∃ w : Nat → Text, ∀ n,
          (s.tabs (n + 1)).AtLineEnd above
            (s.config.normalize (s.context.goodIndent p.line) ++ (List.range n).flatMap w) e below ∧
              (s.tabs (n + 1)).Jumps (w n) := by
  obtain ⟨above, lead, tail, e, below, hlines, rfl⟩ := hp.exists_lines
  rw [hcursor] at hauto
  obtain ⟨good, hreindent⟩ := Context.exists_reindent? hauto
  obtain ⟨hunrefused, hsettled⟩ := step_tab_of_reindent? hrules hcursor hlines rfl hreindent
  obtain rfl := Context.eq_of_reindent? hreindent
  refine ⟨above, lead ++ tail, e, below, hlines, rfl, hunrefused,
    (s.step (.edit .tab)).1.jumpAfter, fun n => ?_⟩
  rw [tabs_succ']
  exact ⟨(hsettled.tabs n).toAtLineEnd, (hsettled.tabs n).tab.1⟩

/-- Inside a line of two spaces below an opener. -/
theorem tab_reindents_once_opener :
    let b := Buffer.ofText ['\t', '{', '\r', '\n', ' ', ' ', '\n', '}']
    let s : Session := ⟨.standard, BracketRules.standard.toRules, b, .caret ⟨2, 2⟩, 0⟩
    ∃ above content e below, s.buffer.lines = above ++ ⟨content, e⟩ :: below ∧
      2 = above.length + 1 ∧ (s.step (.edit .tab)).2.refused? = none ∧
        ∃ w : Nat → Text, ∀ n,
          (s.tabs (n + 1)).AtLineEnd above
            (s.config.normalize (s.context.goodIndent 2) ++ (List.range n).flatMap w) e below ∧
              (s.tabs (n + 1)).Jumps (w n) := by
  intro b s
  have hp : s.buffer.Valid ⟨2, 2⟩ := by decide
  have hauto : (s.context.tab s.cursor).isAutoWhitespace = true := by decide
  exact tab_reindents_once rfl rfl hp hauto

end Session

end Keystroke
