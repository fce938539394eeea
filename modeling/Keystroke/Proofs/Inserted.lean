import Keystroke.Operation.Indent
import Keystroke.Operation.Typing
import Keystroke.Operation.WholeLine
import Keystroke.Proofs.BareReturn
import Keystroke.Proofs.Indentation
import Keystroke.Proofs.Settings
import Keystroke.Rules.Bracket

/-!
# Texts that operations put in

Indentation ends no line, whatever it is computed from, and neither do joined lines. What
the settings and the language rules put in is up to them; a context is tame when they
keep line breaks out of pairs and of the indentation of a new line, and bare carriage
returns out of completions (`Context.Tame`). Then no operation puts in a bare carriage
return of its own.
-/

namespace Keystroke

namespace Text

/-- A character repeated. -/
theorem unbroken_replicate {c : Char} (hc : isLineBreak c = false) (n : Nat) :
    Unbroken (List.replicate n c) := by
  intro x hx
  rwa [List.eq_of_mem_replicate hx]

theorem unbroken_spaces (n : Nat) : Unbroken (List.replicate n ' ') :=
  unbroken_replicate (by decide) n

theorem unbroken_tabs (n : Nat) : Unbroken (List.replicate n '\t') :=
  unbroken_replicate (by decide) n

/-- A text repeated. -/
theorem unbroken_flatten_replicate {t : Text} (ht : Unbroken t) (n : Nat) :
    Unbroken (List.replicate n t).flatten := by
  intro c hc
  obtain ⟨s, hs, hc⟩ := List.mem_flatten.mp hc
  exact ht c (List.eq_of_mem_replicate hs ▸ hc)

/-- Spaces and tabs end no line. -/
theorem AllIndent.unbroken {t : Text} (h : AllIndent t) : Unbroken t :=
  fun c hc => isLineBreak_of_isIndent (h c hc)

theorem unbroken_leadingIndent (t : Text) : Unbroken t.leadingIndent :=
  (allIndent_leadingIndent t).unbroken

theorem Unbroken.content {t : Text} (h : Unbroken t) : Unbroken t.content :=
  h.of_subset (List.dropWhile_subset _)

/-- A part of an unbroken text is unbroken, however it is cut. -/
theorem Unbroken.slice {t : Text} (h : Unbroken t) (first last : Nat) :
    Unbroken (t.slice first last) :=
  (h.drop first).take _

/-- So is what is left when spaces and tabs at its end are taken off. -/
theorem Unbroken.trimEndIndent {t : Text} (h : Unbroken t) : Unbroken t.trimEndIndent := by
  have hr : Unbroken t.reverse := fun c hc => h c (List.mem_reverse.mp hc)
  exact fun c hc => hr.content c (List.mem_reverse.mp hc)

end Text

open Text

/-! ## Indentation -/

namespace IndentStyle

variable (s : IndentStyle)

theorem unbroken_ofWidth (width : Nat) : Unbroken (s.ofWidth width) := by
  unfold ofWidth
  split
  · exact unbroken_spaces _
  · exact unbroken_append.mpr ⟨unbroken_tabs _, unbroken_spaces _⟩

/-- Indentation is written in spaces and tabs, and the rest of the text stays. -/
theorem unbroken_normalize {t : Text} (h : Unbroken t) : Unbroken (s.normalize t) :=
  unbroken_append.mpr ⟨s.unbroken_ofWidth _, h.content⟩

theorem unbroken_oneIndent : Unbroken s.oneIndent := by
  unfold oneIndent
  split
  · exact unbroken_spaces _
  · exact unbroken_tabs 1

end IndentStyle

/-- An outdent is counted out in tabs. -/
theorem unbroken_outdentAsTabs (indentation : Text) (tabSize : Nat) :
    Unbroken (outdentAsTabs indentation tabSize) :=
  unbroken_tabs _

/-- What a line break puts behind the indentation : what the rules append, or a tab. -/
theorem EnterAnswer.unbroken_appended {a : EnterAnswer} (h : Unbroken a.append) :
    Unbroken a.appended := by
  have htab : Unbroken (if a.append = [] then ['\t'] else a.append) := by
    split
    · exact unbroken_tabs 1
    · exact h
  unfold appended
  cases a.action with
  | keep => exact h
  | indent => exact htab
  | indentOutdent => exact htab
  | outdent => exact h

/-! ## Joined lines -/

namespace Joined

/-- A segment is put behind a separator, which is a space or nothing. -/
theorem unbroken_add {j : Joined} {segment : Text} (hj : Unbroken j.text)
    (hs : Unbroken segment) : Unbroken (j.add segment).text := by
  have hspace : Unbroken (' ' :: segment) := unbroken_cons.mpr ⟨by decide, hs⟩
  unfold add
  split
  · exact unbroken_append.mpr ⟨hj.trimEndIndent, hspace⟩
  · split
    · exact unbroken_append.mpr ⟨hj, hs⟩
    · exact unbroken_append.mpr ⟨hj, hspace⟩

/-- A line without content adds nothing, any other its content. -/
theorem unbroken_addLine {j : Joined} {line : Text} (hj : Unbroken j.text)
    (hl : Unbroken line) : Unbroken (j.addLine line).text := by
  unfold addLine
  split
  · exact hj
  · exact unbroken_add hj hl.content

/-- Lines joined one after the other. -/
theorem unbroken_foldl {j : Joined} {rest : List Text} (hj : Unbroken j.text)
    (hrest : ∀ line ∈ rest, Unbroken line) : Unbroken (rest.foldl addLine j).text := by
  induction rest generalizing j with
  | nil => exact hj
  | cons line rest ih =>
    exact ih (unbroken_addLine hj (hrest line (by simp))) fun l hl => hrest l (by simp [hl])

end Joined

/-! ## Tame contexts -/

/-- No pair has a character that ends a line. -/
def Config.PairsUnbroken (c : Config) : Prop :=
  ∀ opener closer, c.closerOf? opener = some closer ∨ c.surroundCloserOf? opener = some closer →
    isLineBreak opener = false ∧ isLineBreak closer = false

/-- Lists of pairs without line breaks make such settings. -/
theorem Config.pairsUnbroken_of_forall {c : Config} {closing surrounding : List (Char × Char)}
    (h : ∀ p ∈ closing ++ surrounding, isLineBreak p.1 = false ∧ isLineBreak p.2 = false) :
    ((c.withAutoClosingPairs closing).withSurroundingPairs surrounding).PairsUnbroken := by
  rintro opener closer (hp | hp)
  · exact h _ (List.mem_append_left _ (PairTable.get?_closers_ofList_iff.mp hp).mem)
  · exact h _ (List.mem_append_right _ (CharMap.get?_ofList_eq_some_iff.mp hp).mem)

/-- The default pairs have no line break. -/
theorem Config.pairsUnbroken_ofStyle (s : IndentStyle) : (ofStyle s).PairsUnbroken :=
  pairsUnbroken_of_forall (c := ofStyle s) (by decide)

namespace Context

/-- The pairs of the settings and the indentation the rules give for a line break end no
line, and no completion has a bare carriage return. -/
structure Tame (ctx : Context) : Prop where
  pairs : ctx.config.PairsUnbroken
  enter : ∀ line column a, ctx.rules.enter? ctx.view line column = some a →
    Unbroken a.indentation ∧ Unbroken a.append
  electric : ∀ c line column a t,
    ctx.rules.electric? c (ctx.view.lineTokens line) column = .ok (some a) →
      a.append? = some t → NoBareReturn t

variable {ctx : Context}

/-- A jump puts in spaces, or one tab. -/
theorem allIndent_jumpText (p : Position) : AllIndent (ctx.jumpText p) := by
  unfold jumpText
  split
  · exact allIndent_replicate (by decide) _
  · exact allIndent_replicate (by decide) 1

theorem unbroken_jumpText (p : Position) : Unbroken (ctx.jumpText p) :=
  (allIndent_jumpText p).unbroken

section

variable (h : ∀ line column a, ctx.rules.enter? ctx.view line column = some a →
  Unbroken a.indentation ∧ Unbroken a.append)

include h

/-- The indentation of a line after another comes from the rules, or from the line itself. -/
theorem unbroken_indentAfter (line : Nat) : Unbroken (ctx.indentAfter line) := by
  unfold indentAfter
  generalize ha : (ctx.rules.enter? ctx.view line (ctx.view.maxColumn line)).getD
    { indentation := (ctx.view.lineContent line).leadingIndent } = a
  have hu : Unbroken a.indentation ∧ Unbroken a.append := by
    rcases hr : ctx.rules.enter? ctx.view line (ctx.view.maxColumn line) with _ | a'
    · rw [hr] at ha
      rw [← ha]
      exact ⟨unbroken_leadingIndent _, unbroken_nil⟩
    · rw [hr] at ha
      rw [← ha]
      exact h _ _ _ hr
  obtain ⟨hi, ha⟩ := hu
  refine unbroken_append.mpr ⟨?_, EnterAnswer.unbroken_appended ha⟩
  cases a.action with
  | outdent => exact ctx.config.style.unbroken_normalize (unbroken_outdentAsTabs _ _)
  | keep => exact hi
  | indent => exact hi
  | indentOutdent => exact hi

/-- The indentation of a blank line, or a tab where the lines above ask for none. -/
theorem unbroken_goodIndent (line : Nat) : Unbroken (ctx.goodIndent line) := by
  unfold goodIndent
  split
  · exact unbroken_tabs 1
  · split
    · exact unbroken_tabs 1
    · exact unbroken_indentAfter h _

end

/-- A line is re-indented to its good indentation in the configured style. -/
theorem eq_of_reindent? {line : Nat} {good : Text} (h : ctx.reindent? line = some good) :
    ctx.config.normalize (ctx.goodIndent line) = good := by
  unfold reindent? at h
  simp only at h
  split at h
  · exact Option.some.inj h
  · cases h

end Context

/-! ## Rules for bracketed languages -/

namespace BracketRules

variable {r : BracketRules}

/-- Only the closing of a doc comment completes a line. -/
theorem exists_docComment {c : Char} {before : Text} {a : ElectricAction}
    (h : r.completeDocComment? c before = some a) :
    ∃ opening closing, r.docComment = some (opening, closing) ∧ a.append? = some closing := by
  unfold completeDocComment? at h
  split at h
  · rename_i opening closing hdoc
    split at h
    · obtain rfl := Option.some.inj h
      exact ⟨opening, closing, hdoc, rfl⟩
    · cases h
  · cases h

/-- What is put in after an electric character completes a doc comment. -/
theorem exists_docComment_of_electric? {c : Char} {l : LineTokens} {column : Nat}
    {a : ElectricAction} {t : Text} (h : r.electric? c l column = .ok (some a))
    (ha : a.append? = some t) : ∃ opening, r.docComment = some (opening, t) := by
  unfold electric? at h
  rcases hcheck : l.check with err | u
  · simp only [hcheck, Bind.bind, Except.bind, reduceCtorEq] at h
  simp only [hcheck, Bind.bind, Except.bind, pure, Except.pure] at h
  split at h
  · rename_i a' hcomplete
    obtain rfl : a' = a := by simpa using h
    obtain ⟨opening, closing, hdoc, hclosing⟩ := exists_docComment hcomplete
    obtain rfl : closing = t := Option.some.inj (hclosing.symm.trans ha)
    exact ⟨opening, hdoc⟩
  · split at h
    · split at h
      · obtain rfl : _ = a := by simpa using h
        cases ha
      · simp at h
    · simp at h

/-- Rules for bracketed languages answer with the indentation of a line and with tabs. -/
theorem unbroken_enter (r : BracketRules) (v : View) (line column : Nat) :
    Unbroken (r.enter v line column).indentation ∧ Unbroken (r.enter v line column).append := by
  unfold enter
  simp only
  split
  · exact ⟨unbroken_leadingIndent _, unbroken_tabs 1⟩
  · exact ⟨unbroken_leadingIndent _, unbroken_nil⟩

/-- Rules for bracketed languages keep a context tame, if what completes a doc comment
has no bare carriage return. -/
theorem tame {c : Config} (hc : c.PairsUnbroken)
    (hdoc : ∀ opening closing, r.docComment = some (opening, closing) → NoBareReturn closing)
    (v : View) : (⟨c, v, r.toRules⟩ : Context).Tame where
  pairs := hc
  enter := by
    rintro line column a ⟨⟩
    exact r.unbroken_enter v line column
  electric := by
    intro x line column a t h ha
    obtain ⟨opening, hd⟩ := exists_docComment_of_electric? h ha
    exact hdoc opening t hd

end BracketRules

end Keystroke
