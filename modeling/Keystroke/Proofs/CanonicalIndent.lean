import Keystroke.Proofs.BrokenLine
import Keystroke.Proofs.Electric
import Keystroke.Proofs.ShiftedContents

/-!
# Indentation as it is written

Spaces and tabs are canonical in a style when there is no tab among them, or when they are
tabs with fewer spaces behind them than a tab is wide (`IndentStyle.Canonical`). A line
break, Tab on a blank line, a shift and an electric character put indentation together in
ways of their own, from what the rules answer and what the buffer holds. All of it is
canonical in the configured style (`Context.indentsInStyle`), provided that the rules put no
line break of their own into the answer to one. A line that is aligned is indented as wide as
the line of its opener, if a text has room for so much (`Context.alignment_lost`).
-/

namespace Keystroke

open Text

/-! ## Canonical runs -/

namespace IndentStyle

/-- Spaces and tabs as a style writes them. -/
inductive Canonical (s : IndentStyle) : Text → Prop
  | spaces (n : Nat) : s.insertSpaces = true → s.Canonical (List.replicate n ' ')
  | tabs (m : Nat) {n : Nat} : s.insertSpaces = false → n < s.tabSize →
      s.Canonical (List.replicate m '\t' ++ List.replicate n ' ')

variable {s : IndentStyle} (h : 0 < s.tabSize)

include h

theorem canonical_ofWidth (width : Nat) : s.Canonical (s.ofWidth width) := by
  unfold ofWidth
  split
  · rename_i hspaces
    exact .spaces width hspaces
  · rename_i htabs
    exact .tabs _ (Bool.eq_false_iff.mpr htabs) (Nat.mod_lt width h)

theorem canonical_normalize (t : Text) : s.Canonical (s.normalize t).leadingIndent := by
  rw [leadingIndent_normalize]
  exact canonical_ofWidth h _

/-- Whole levels are spaces only or tabs only. -/
theorem canonical_ofLevels (n : Nat) : s.Canonical (s.ofLevels n) := by
  unfold ofLevels oneIndent
  split
  · rename_i hspaces
    rw [List.flatten_replicate_replicate]
    exact .spaces _ hspaces
  · rename_i htabs
    rw [List.flatten_replicate_singleton, ← List.append_nil (List.replicate n '\t')]
    exact .tabs n (Bool.eq_false_iff.mpr htabs) h

end IndentStyle

/-- The content of a line starts with a character that is not a space or a tab. -/
theorem Text.isIndent_head?_content (t : Text) {c : Char} (hc : c ∈ t.content.head?) :
    isIndent c = false := by
  obtain ⟨u, hu⟩ := List.head?_eq_some_iff.mp hc
  have hnil := leadingIndent_content t
  rw [hu, leadingIndent, List.takeWhile_cons] at hnil
  split at hnil
  · cases hnil
  · rename_i hindent
    exact Bool.eq_false_iff.mpr hindent

/-- Cut from where the content of a line starts up to a place, the line gives the content of
what is in front of the place. -/
theorem Text.slice_firstContent? (t : Text) (n : Nat) :
    t.slice (min (t.firstContent?.getD n) n) n = content (t.take n) := by
  rw [slice, ← List.drop_take, ← drop_length_leadingIndent (t.take n)]
  rcases Nat.le_total n t.length with hn | hn
  · have hfirst := min_getD_firstContent? (t.take n) (t.drop n)
    rw [List.take_append_drop, List.length_take, Nat.min_eq_left hn] at hfirst
    rw [hfirst]
  · -- the place is past the end of the line
    have hcontent := getD_firstContent? t
    rw [List.take_of_length_le hn]
    cases hf : firstContent? t with
    | none =>
      rw [hf, Option.getD_none] at hcontent
      rw [← hcontent, Option.getD_none, Nat.min_self, List.drop_of_length_le hn,
        List.drop_length]
    | some i =>
      rw [hf, Option.getD_some] at hcontent
      have hle := length_leadingIndent_le t
      rw [Option.getD_some, hcontent, Nat.min_eq_left (by omega)]

namespace Context

variable {ctx : Context} {p : Position} {opener c : Char} {o : Outcome}

/-- What stays in front of the caret when its line is aligned is the content of what is in
front of it. -/
theorem contentBefore_eq_content (ctx : Context) (p : Position) :
    ctx.contentBefore p = content ((ctx.view.lineContent p.line).take (p.column - 1)) := by
  have hfirst : min ((ctx.view.firstContentColumn? p.line).getD p.column) p.column - 1 =
      min ((firstContent? (ctx.view.lineContent p.line)).getD (p.column - 1)) (p.column - 1) := by
    unfold View.firstContentColumn?
    cases firstContent? (ctx.view.lineContent p.line) with
    | none => simp
    | some i =>
      simp only [Option.map_some, Option.getD_some]
      omega
  rw [← slice_firstContent?, ← hfirst]
  rfl

/-! ## What operations write -/

/-- An outcome puts a character in and canonical indentation in front of its line, as wide as
that of the line of the opener above if a text has room for it. What the line had between its
indentation and the character stays. -/
def AlignsInStyle (ctx : Context) (p : Position) (opener c : Char) (o : Outcome) : Prop :=
  ∃ found indentation kept, ctx.view.openerAbove? opener p = some found ∧
    o.command? = some (.type (.onLine p.line 1 p.column) (indentation ++ kept ++ [c])) ∧
      ctx.config.style.Canonical indentation ∧
        (let width :=
          (ctx.view.lineContent found.start.line).leadingIndent.spacing ctx.config.tabSize
        width ≤ maxBytes → indentation.spacing ctx.config.tabSize = width) ∧
          kept = content ((ctx.view.lineContent p.line).take (p.column - 1)) ∧
            ∀ x ∈ kept.head?, isIndent x = false

/-- All indentation that operations write is canonical in the configured style. -/
structure IndentsInStyle (ctx : Context) : Prop where
  /-- The indentation of every new line of a line break. -/
  enter : ∀ {keep r c e}, (ctx.enter keep r).command? = some c → e ∈ c.edits →
    ∃ new, lines e.text = ⟨[], ['\n']⟩ :: new ∧
      ∀ l ∈ new, ctx.config.style.Canonical l.content.leadingIndent
  /-- The indentation Tab gives a blank line. -/
  tab : ∀ {s}, (ctx.tab s).isAutoWhitespace = true →
    ∃ good, (ctx.tab s).command?.map Command.edits =
        some [⟨.onLine s.start.line 1 (ctx.view.maxColumn s.start.line), good⟩] ∧
      (ctx.view.lineContent s.start.line).isBlankLine = true ∧
        ctx.config.style.Canonical good.leadingIndent
  /-- The indentation of every shifted line. -/
  shift : ∀ {d s c e}, (ctx.shift d s).command? = some c → e ∈ c.edits →
    ctx.config.style.Canonical e.text
  /-- The indentation of a line that an electric character does not complete but align. -/
  electric : ∀ {s c o}, ctx.electric? s c = some o →
    (∃ a t, ctx.electricAction? c s.head = some a ∧ a.append? = some t ∧
      o = complete s c t) ∨ ∃ opener, ctx.AlignsInStyle s.head opener c o

theorem canonical_newLines {a : EnterAnswer} (ha : Unbroken a.indentation ∧ Unbroken a.append) :
    ∃ new, lines (ctx.config.breakText a) = ⟨[], ['\n']⟩ :: new ∧
      ∀ l ∈ new, ctx.config.style.Canonical l.content.leadingIndent := by
  have hcanonical (t : Text) : ctx.config.style.Canonical (ctx.config.normalize t).leadingIndent :=
    IndentStyle.canonical_normalize ctx.config.tabSize_pos t
  by_cases h : a.action = .indentOutdent
  · refine ⟨_, ctx.config.lines_breakText_indentOutdent ha h, fun l hl => ?_⟩
    rcases List.mem_cons.mp hl with rfl | hl
    · exact hcanonical _
    · rw [List.mem_singleton.mp hl]
      exact hcanonical _
  · refine ⟨_, ctx.config.lines_breakText ha h, fun l hl => ?_⟩
    rw [List.mem_singleton.mp hl]
    exact hcanonical _

/-- A line that Tab re-indents is blank. -/
theorem isBlankLine_of_reindent? {line : Nat} {good : Text} (h : ctx.reindent? line = some good) :
    (ctx.view.lineContent line).isBlankLine = true := by
  unfold reindent? at h
  simp only at h
  split at h
  · rename_i hif
    exact (Bool.and_eq_true_iff.mp hif).1
  · cases h

theorem exists_good_of_tab {s : Selection} (h : (ctx.tab s).isAutoWhitespace = true) :
    ∃ good, (ctx.tab s).command?.map Command.edits =
        some [⟨.onLine s.start.line 1 (ctx.view.maxColumn s.start.line), good⟩] ∧
      (ctx.view.lineContent s.start.line).isBlankLine = true ∧
        ctx.config.style.Canonical good.leadingIndent := by
  unfold tab at h ⊢
  split at h
  · rename_i hempty
    simp only [hempty, if_true] at h ⊢
    cases hr : ctx.reindent? s.start.line with
    | none =>
      rw [hr] at h
      cases h
    | some good =>
      refine ⟨good, rfl, isBlankLine_of_reindent? hr, ?_⟩
      rw [← eq_of_reindent? hr]
      exact IndentStyle.canonical_normalize ctx.config.tabSize_pos _
  · -- jumping and shifting put in no white space of the editor's own
    split at h <;> cases h

theorem canonical_of_mem_shift {d : ShiftDirection} {s : Selection} {c : Command} {e : TextEdit}
    (hc : (ctx.shift d s).command? = some c) (he : e ∈ c.edits) :
    ctx.config.style.Canonical e.text := by
  rw [command?_shift] at hc
  obtain rfl := Option.some.inj hc
  obtain ⟨line, -, hedit⟩ := Shift.mem_edits.mp he
  rw [(Shift.lineEdit?_ends hedit).2.2]
  exact IndentStyle.canonical_ofLevels ctx.config.tabSize_pos _

theorem alignsInStyle (h : ctx.align? p opener c = some o) : ctx.AlignsInStyle p opener c o := by
  have hopener : ∃ found, ctx.view.openerAbove? opener p = some found ∧
      found.start.line ≠ p.line := by
    unfold align? at h
    split at h
    · rename_i found hfound
      refine ⟨found, hfound, fun hline => ?_⟩
      simp only [hline, if_true] at h
      cases h
    · cases h
  obtain ⟨found, hfound, hline⟩ := hopener
  obtain rfl := Option.some.inj ((align?_eq_some hfound hline).symm.trans h)
  have hindent := allIndent_leadingIndent (ctx.view.lineContent found.start.line)
  have hnormal := ctx.config.style.allIndent_normalize hindent
  have hcanonical := IndentStyle.canonical_normalize ctx.config.tabSize_pos
    (ctx.view.lineContent found.start.line).leadingIndent
  rw [hnormal.leadingIndent] at hcanonical
  refine ⟨found, _, ctx.contentBefore p, hfound, rfl, hcanonical,
    fun hle => ctx.config.style.spacing_normalize hindent (le_maxWord hle),
    ctx.contentBefore_eq_content p, fun x hx => ?_⟩
  rw [contentBefore_eq_content] at hx
  exact isIndent_head?_content _ hx

theorem completes_or_aligns {s : Selection} (h : ctx.electric? s c = some o) :
    (∃ a t, ctx.electricAction? c s.head = some a ∧ a.append? = some t ∧
      o = complete s c t) ∨ ∃ opener, ctx.AlignsInStyle s.head opener c o := by
  unfold electric? at h
  split at h
  · split at h
    · rename_i t alignWith? haction
      exact .inl ⟨_, t, haction, rfl, (Option.some.inj h).symm⟩
    · rename_i opener _
      exact .inr ⟨opener, alignsInStyle h⟩
    · cases h
  · cases h

end Context

end Keystroke
