import Keystroke.Proofs.BrokenLine
import Keystroke.Proofs.BrokenSelection
import Keystroke.Proofs.Electric
import Keystroke.Proofs.OpenerAbove
import Mathlib.Data.List.TakeWhile

/-!
# Closing a block

A line feed typed behind an opener leaves the caret behind the deeper indentation of the
next line, and no tokens are set there any more (`Session.AtIndent`). A closer typed at that
place is no closer in front of itself and opens no pair, so it is read as electric. The
search for its opener comes upon white space only and finds it on the line above, which
gives the closer's line its indentation (`Session.AtIndent.type_closer`). So a block that is
closed as soon as it is opened has its closer below the line of its opener
(`Session.closer_realigns`).
-/

namespace Keystroke

open Text Position

/-! ## The opener in front of a caret -/

namespace Text

/-- The last character that is not white space has only white space behind it. -/
theorem exists_of_getLast?_trimEnd {t : Text} {c : Char} (h : t.trimEnd.getLast? = some c) :
    ∃ s w, t = s ++ c :: w ∧ (∀ x ∈ w, isSpace x = true) := by
  rw [trimEnd, List.getLast?_reverse, trimStart] at h
  obtain ⟨u, hu⟩ := List.head?_eq_some_iff.mp h
  have hcut : t.reverse.takeWhile isSpace ++ c :: u = t.reverse := by
    rw [← hu]
    exact List.takeWhile_append_dropWhile
  refine ⟨u.reverse, (t.reverse.takeWhile isSpace).reverse, ?_, fun x hx => ?_⟩
  · have ht := congrArg List.reverse hcut
    rw [List.reverse_reverse, List.reverse_append, List.reverse_cons, List.append_assoc] at ht
    exact ht.symm
  · exact List.mem_takeWhile_imp (List.mem_reverse.mp hx)

/-- White space differs from any other character. -/
theorem ne_of_isSpace {c d : Char} (hc : isSpace c = true) (hd : isSpace d = false) : c ≠ d := by
  rintro rfl
  rw [hc] at hd
  cases hd

/-- What starts with no white space is not trimmed. -/
theorem head?_trimStart {t : Text} {c : Char} (h : t.head? = some c) (hc : isSpace c = false) :
    t.trimStart.head? = some c := by
  obtain ⟨u, rfl⟩ := List.head?_eq_some_iff.mp h
  simp [trimStart, hc]

end Text

/-! ## Standard brackets -/

namespace BracketRules

variable {opener closer : Char}

/-- The standard brackets are found from either side, and as one pair. -/
theorem standard_lookup : ∀ p ∈ standard.brackets,
    standard.closerOf? p.1 = some p.2 ∧ standard.openerOf? p.2 = some p.1 ∧
      standard.brackets.find? (fun q => q.1 == p.1 || q.2 == p.1) = some p := by
  decide

theorem standard_ne : ∀ p ∈ standard.brackets, p.1 ≠ p.2 := by
  decide

/-- They are no white space. -/
theorem standard_not_isSpace : ∀ p ∈ standard.brackets,
    isSpace p.1 = false ∧ isSpace p.2 = false := by
  decide

theorem standard_not_isLineBreak (h : (opener, closer) ∈ standard.brackets) :
    isLineBreak closer = false := by
  rw [← Bool.not_eq_true]
  exact fun hbreak =>
    ne_of_isSpace (isSpace_of_isLineBreak hbreak) (standard_not_isSpace _ h).2 rfl

end BracketRules

/-- What the rules answer with behind an opener. -/
theorem Text.unbroken_deeper (lead : Text) : Unbroken lead.leadingIndent ∧ Unbroken ['\t'] :=
  ⟨unbroken_leadingIndent lead, by decide⟩

/-- The new line behind an opener has only indentation on it. -/
theorem Config.allIndent_deeper (c : Config) (lead : Text) :
    AllIndent (c.normalize (lead.leadingIndent ++ ['\t'])) :=
  c.style.allIndent_normalize ((allIndent_leadingIndent lead).append (by decide))

/-- By default the closer of a standard bracket is electric and opens no pair. -/
theorem Config.ofStyle_brackets (st : IndentStyle) : ∀ p ∈ BracketRules.standard.brackets,
    (ofStyle st).closerOf? p.2 = none ∧ (ofStyle st).isElectric p.2 = true := by
  show ∀ p ∈ BracketRules.standard.brackets,
    standard.closerOf? p.2 = none ∧ standard.isElectric p.2 = true
  decide

/-! ## Typing the closer -/

namespace Session

variable {s : Session} {st : IndentStyle} {opener closer : Char} {above below : List Line}
  {lead pad tail e : Text}

/-- The default pairs and electric characters, rules and brackets. -/
structure HasDefaults (s : Session) (st : IndentStyle) : Prop where
  config : s.config = .ofStyle st
  rules : s.rules = BracketRules.standard.toRules
  brackets : s.buffer.brackets = BracketRules.standard.brackets

/-- An edit keeps the settings and the rules. -/
theorem HasDefaults.step_edit (h : s.HasDefaults st) {x : EditStep}
    (hbrackets : (s.step (.edit x)).1.buffer.brackets = s.buffer.brackets) :
    (s.step (.edit x)).1.HasDefaults st :=
  ⟨(s.config_step_edit x).trans h.config, (s.rules_step_edit x).trans h.rules,
    hbrackets.trans h.brackets⟩

/-- A caret right behind the indentation of a line, in a buffer with no tokens set. -/
structure AtIndent (s : Session) (above : List Line) (pad tail e : Text) (below : List Line) :
    Prop where
  lines : s.buffer.lines = above ++ ⟨pad ++ tail, e⟩ :: below
  tokens : s.buffer.tokens = []
  cursor : s.cursor = .caret ⟨above.length + 1, pad.length + 1⟩
  indent : AllIndent pad

namespace AtIndent

section

variable (h : s.AtIndent above pad tail e below)

include h

/-- The line of the closer, padding in front. -/
theorem lineContent : s.context.view.lineContent (above.length + 1) = pad ++ tail :=
  Buffer.lineContent_of_lines h.lines

theorem charAfter? : s.context.charAfter? ⟨above.length + 1, pad.length + 1⟩ = tail.head? := by
  rw [Context.charAfter?, h.lineContent, Nat.add_sub_cancel,
    List.getElem?_append_right (Nat.le_refl _), Nat.sub_self, List.head?_eq_getElem?]

/-- There is nothing but padding in front of the closer. -/
theorem contentBefore : s.context.contentBefore ⟨above.length + 1, pad.length + 1⟩ = [] := by
  rw [Context.contentBefore_eq h.lineContent, h.indent.content]

/-- The rules are asked about a line without special tokens. -/
theorem lineTokens : s.context.view.lineTokens (above.length + 1) = .plain (pad ++ tail) := by
  have hplain : s.buffer.lineTokens (above.length + 1) =
      .plain (s.buffer.lineContent (above.length + 1)) := by
    rw [Buffer.lineTokens, h.tokens]
    rfl
  rw [← h.lineContent]
  exact hplain

/-- There a closer asks for its opener. -/
theorem electricAction? (hs : s.HasDefaults st)
    (hopener : BracketRules.standard.openerOf? closer = some opener) :
    s.context.electricAction? closer ⟨above.length + 1, pad.length + 1⟩ =
      some { alignWith? := some opener } := by
  have hblank : isBlankLine ((pad ++ tail).take (pad.length + 1 - 1)) = true := by
    rw [Nat.add_sub_cancel, List.take_left]
    exact h.indent.isBlankLine
  have hrules : s.context.rules = BracketRules.standard.toRules := hs.rules
  rw [Context.electricAction?_eq_some_iff, h.lineTokens, hrules]
  exact BracketRules.electric?_closer rfl hopener hblank

end

section

variable (h : s.AtIndent (above ++ [⟨lead, ['\n']⟩]) pad tail e below) (hs : s.HasDefaults st)
  (hpair : (opener, closer) ∈ BracketRules.standard.brackets)
  (hopener : lead.trimEnd.getLast? = some opener)

include h hs hpair hopener

/-- The search for the opener at the end of the line above comes upon white space only. -/
theorem align?_opener :
    s.context.align? ⟨(above ++ [Line.mk lead ['\n']]).length + 1, pad.length + 1⟩ opener closer =
      some (Outcome.ofCommand (.type (.ofPart (above ++ [⟨lead, ['\n']⟩]) [] pad)
        (s.config.normalize lead.leadingIndent ++ [closer]))).withBoundaryAfter := by
  obtain ⟨-, -, hfind⟩ := BracketRules.standard_lookup _ hpair
  obtain ⟨hospace, hcspace⟩ := BracketRules.standard_not_isSpace _ hpair
  have hpairOf : s.buffer.pairOf? opener = some (opener, closer) := by
    rw [Buffer.pairOf?, hs.brackets, hfind]
  have hlead : s.context.view.lineContent (above.length + 1) = lead := by
    have hlines : s.buffer.lines = above ++ ⟨lead, ['\n']⟩ :: ⟨pad ++ tail, e⟩ :: below := by
      simpa using h.lines
    exact Buffer.lineContent_of_lines hlines
  obtain ⟨start, w, rfl, hw⟩ := exists_of_getLast?_trimEnd hopener
  have hspace : ∀ c ∈ w ++ (['\n'] ++ pad), isSpace c = true := by
    intro c hc
    rcases List.mem_append.mp hc with hc | hc
    · exact hw c hc
    · rcases List.mem_cons.mp hc with rfl | hc
      · decide
      · exact isSpace_of_isIndent (h.indent c hc)
  obtain ⟨found, hfound, hstart⟩ := Buffer.openerAbove?_of_lines hpairOf
    (BracketRules.standard_ne _ hpair) h.lines fun c hc =>
      ⟨ne_of_isSpace (hspace c hc) hospace, ne_of_isSpace (hspace c hc) hcspace⟩
  have hother : found.start.line ≠
      (above ++ [Line.mk (start ++ opener :: w) ['\n']]).length + 1 := by
    rw [hstart]
    simp
  have halign : s.context.align? _ opener closer = some _ :=
    Context.align?_eq_some hfound hother
  rw [hstart, hlead, h.contentBefore, List.append_nil] at halign
  exact halign

/-- A closer typed there is electric, and its line is aligned with the opener's. -/
theorem type_closer (hafter : tail.head? ≠ some closer) :
    s.context.type s.cursor [closer] =
      (Outcome.ofCommand (.type (.ofPart (above ++ [⟨lead, ['\n']⟩]) [] pad)
        (s.config.normalize lead.leadingIndent ++ [closer]))).withBoundaryAfter := by
  obtain ⟨-, hopenerOf, -⟩ := BracketRules.standard_lookup _ hpair
  obtain ⟨hcloserOf, helectric⟩ := Config.ofStyle_brackets st _ hpair
  rw [← hs.config] at hcloserOf helectric
  have hread := Context.electric?_of_alignWith? helectric (h.electricAction? hs hopenerOf)
  rw [h.align?_opener hs hpair hopener] at hread
  rw [h.cursor]
  exact Context.type_of_electric? (BracketRules.standard_not_isLineBreak hpair)
    (by rwa [h.charAfter?]) hcloserOf hread

/-- The closer then stands behind the indentation of its opener's line, with the caret right
behind it. What followed the caret still does. -/
theorem step_closer (hafter : tail.head? ≠ some closer) :
    (s.step (.edit (.type [closer]))).2.refused? = none ∧
      (s.step (.edit (.type [closer]))).1.cursor =
        .caret ⟨above.length + 2, (s.config.normalize lead.leadingIndent ++ [closer]).length + 1⟩ ∧
      (s.step (.edit (.type [closer]))).1.buffer.lines = above ++ ⟨lead, ['\n']⟩ ::
        ⟨s.config.normalize lead.leadingIndent ++ [closer] ++ tail, e⟩ :: below := by
  have hcloser : Unbroken [closer] := by simpa using BracketRules.standard_not_isLineBreak hpair
  have hnew : Unbroken (s.config.normalize lead.leadingIndent ++ [closer]) :=
    unbroken_append.mpr ⟨s.config.style.unbroken_normalize (unbroken_leadingIndent lead), hcloser⟩
  have hlines : s.buffer.lines =
      (above ++ [⟨lead, ['\n']⟩]) ++ ⟨[] ++ pad ++ tail, e⟩ :: below := h.lines
  obtain ⟨b', hlines', happly⟩ := Buffer.exists_type_ofPart hlines hnew (List.concat_ne_nil _ _)
  have hcommand := congrArg Outcome.command? (h.type_closer hs hpair hopener hafter)
  have hstep : s.step (.edit (.type [closer])) = _ := run_of_ok hcommand happly
  rw [hstep]
  refine ⟨rfl, ?_, ?_⟩
  · simp
  · simpa using hlines'

end

end AtIndent

/-! ## Breaking the line behind an opener -/

section

variable (hs : s.HasDefaults st) (hcursor : s.cursor = .caret ⟨above.length + 1, lead.length + 1⟩)
  (hlines : s.buffer.lines = above ++ ⟨lead ++ tail, e⟩ :: below)
  (hpair : (opener, closer) ∈ BracketRules.standard.brackets)
  (hopener : lead.trimEnd.getLast? = some opener)

include hs hlines hpair hopener

/-- A break behind an opener is answered with its indentation and one tab more. -/
theorem enter?_opener :
    s.rules.enter? s.buffer.view (above.length + 1) (lead.length + 1) = some
      { action := if tail.trimStart.head? = some closer then .indentOutdent else .indent
        append := ['\t'], indentation := lead.leadingIndent } := by
  have hcloser : lead.trimEnd.getLast?.bind BracketRules.standard.closerOf? = some closer := by
    rw [hopener]
    exact (BracketRules.standard_lookup _ hpair).1
  have hanswer := BracketRules.standard.enter_of_lines hlines
  rw [BracketRules.answer, hcloser] at hanswer
  rw [hs.rules]
  exact congrArg some hanswer

omit hs hpair in
/-- An opener is no carriage return. -/
theorem not_fuses_opener (t : Text) :
    ¬Fuses ((above ++ [Line.mk lead []]).flatMap Line.toText) t := by
  refine IsLines.not_fuses_of_ne_nil (Buffer.unbroken_of_lines hlines).1 ?_ above t
  rintro rfl
  cases hopener

include hcursor

variable (hroom : (s.config.normalize (lead.leadingIndent ++ ['\t'])).length < maxCoordinate)

include hroom

/-- A line feed typed behind an opener leaves the caret behind the deeper indentation on the
next line, in front of what followed it. -/
theorem step_type_lineFeed_indent (hsplit : tail.trimStart.head? ≠ some closer) :
    (s.step (.edit (.type ['\n']))).2.refused? = none ∧
      (s.step (.edit (.type ['\n']))).1.HasDefaults st ∧
        (s.step (.edit (.type ['\n']))).1.AtIndent (above ++ [⟨lead, ['\n']⟩])
          (s.config.normalize (lead.leadingIndent ++ ['\t'])) tail e below := by
  have hanswer := enter?_opener hs hlines hpair hopener
  rw [if_neg hsplit] at hanswer
  have hnew := s.config.lines_breakText (a := ⟨.indent, ['\t'], lead.leadingIndent⟩)
    (unbroken_deeper lead) (by simp)
  obtain ⟨hunrefused, hlines', htokens, hbrackets, hcursor'⟩ := step_type_lineFeed hcursor hlines
    hanswer (unbroken_deeper lead) (not_fuses_opener hlines hopener _) hnew hroom
  refine ⟨hunrefused, hs.step_edit hbrackets, ?_, htokens, ?_, s.config.allIndent_deeper lead⟩
  · rw [hlines', List.append_assoc]
    rfl
  · rw [hcursor', List.length_append]
    rfl

/-- Between an opener and its closer, what followed the caret goes to a third line. -/
theorem step_type_lineFeed_split (hsplit : tail.trimStart.head? = some closer) :
    (s.step (.edit (.type ['\n']))).2.refused? = none ∧
      (s.step (.edit (.type ['\n']))).1.HasDefaults st ∧
        (s.step (.edit (.type ['\n']))).1.AtIndent (above ++ [⟨lead, ['\n']⟩])
          (s.config.normalize (lead.leadingIndent ++ ['\t'])) [] ['\n']
          (⟨s.config.normalize lead.leadingIndent ++ tail, e⟩ :: below) := by
  have hanswer := enter?_opener hs hlines hpair hopener
  rw [if_pos hsplit] at hanswer
  have hnew := s.config.lines_breakText_indentOutdent
    (a := ⟨.indentOutdent, ['\t'], lead.leadingIndent⟩) (unbroken_deeper lead) rfl
  obtain ⟨hunrefused, hlines', htokens, hbrackets, hcursor'⟩ := step_type_lineFeed hcursor hlines
    hanswer (unbroken_deeper lead) (not_fuses_opener hlines hopener _) hnew hroom
  refine ⟨hunrefused, hs.step_edit hbrackets, ?_, htokens, ?_, s.config.allIndent_deeper lead⟩
  · rw [hlines', List.append_assoc, List.append_nil]
    rfl
  · rw [hcursor', List.length_append]
    rfl

end

end Session

end Keystroke
