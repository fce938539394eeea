import Keystroke.Operation.WholeLine
import Keystroke.Proofs.Indentation
import Mathlib.Data.List.TakeWhile

/-!
# Joined text

Joining appends the content of one line after the other to the first line
(`Joined.text_ofLines`). What was joined before a line is kept but for the spaces and tabs
at its end, and one separator goes between the two, so a joined text starts with all that
was joined so far and the line after it (`Text.Seam`). A line without content adds
nothing. Only spaces and tabs are lost (`Text.unspaced_foldl_appendLine`).
-/

namespace Keystroke

namespace Text

/-! ## Spaces and tabs in a text -/

/-- The text without its spaces and tabs. -/
def unspaced (t : Text) : Text :=
  t.filter fun c => !isIndent c

@[simp] theorem unspaced_append (s t : Text) : unspaced (s ++ t) = unspaced s ++ unspaced t :=
  List.filter_append s t

/-- Nothing is left of spaces and tabs. -/
theorem AllIndent.unspaced {t : Text} (h : AllIndent t) : t.unspaced = [] := by
  refine List.filter_eq_nil_iff.mpr fun c hc => ?_
  simp [h c hc]

/-- Indentation is all that a content lacks. -/
theorem unspaced_content (t : Text) : t.content.unspaced = t.unspaced := by
  have h := congrArg Text.unspaced (leadingIndent_append_content t)
  rwa [unspaced_append, (allIndent_leadingIndent t).unspaced, List.nil_append] at h

/-- A line without content is blank. -/
theorem content_eq_nil_iff {t : Text} : t.content = [] ↔ t.hasContent = false := by
  simp [content, hasContent, List.dropWhile_eq_nil_iff]

theorem hasContent_content (t : Text) : t.content.hasContent = t.hasContent := by
  rw [Bool.eq_iff_iff, ← Bool.not_eq_false, ← Bool.not_eq_false, ← content_eq_nil_iff,
    ← content_eq_nil_iff, content_content]

/-! ## Spaces and tabs at the end -/

/-- What is trimmed off is spaces and tabs. -/
theorem exists_trimEndIndent_append (t : Text) :
    ∃ w, AllIndent w ∧ t.trimEndIndent ++ w = t := by
  refine ⟨(leadingIndent t.reverse).reverse, fun c hc => ?_, ?_⟩
  · exact allIndent_leadingIndent _ c (List.mem_reverse.mp hc)
  · rw [trimEndIndent, ← List.reverse_append, leadingIndent_append_content, List.reverse_reverse]

theorem trimEndIndent_isPrefix (t : Text) : t.trimEndIndent <+: t := by
  obtain ⟨w, -, h⟩ := exists_trimEndIndent_append t
  exact ⟨w, h⟩

/-- Trimming takes nothing else away. -/
theorem unspaced_trimEndIndent (t : Text) : t.trimEndIndent.unspaced = t.unspaced := by
  obtain ⟨w, hw, h⟩ := exists_trimEndIndent_append t
  have h := congrArg Text.unspaced h
  rwa [unspaced_append, hw.unspaced, List.append_nil] at h

/-- A text that does not end in spaces and tabs has nothing to trim. -/
theorem trimEndIndent_of_endsInIndent {t : Text} (h : t.endsInIndent = false) :
    t.trimEndIndent = t := by
  rcases List.eq_nil_or_concat t with rfl | ⟨s, c, rfl⟩
  · rfl
  · have hc : isIndent c = false := by simpa [endsInIndent] using h
    simp [trimEndIndent, content, hc]

/-- Only the end of a text with content is trimmed. -/
theorem trimEndIndent_append {t : Text} (h : t.hasContent = true) (s : Text) :
    (s ++ t).trimEndIndent = s ++ t.trimEndIndent := by
  have hne : content t.reverse ≠ [] := by
    have hreverse : hasContent t.reverse = true := by rwa [hasContent, List.any_reverse]
    simp [content_eq_nil_iff, hreverse]
  have hcontent : content (t.reverse ++ s.reverse) = content t.reverse ++ s.reverse := by
    rw [content, List.dropWhile_append, if_neg (by simpa [content] using hne)]
    rfl
  rw [trimEndIndent, List.reverse_append, hcontent, List.reverse_append, List.reverse_reverse]
  rfl

/-! ## Appending a line -/

/-- What goes between a text and the content that is appended to it : one space, but none
at the start of a line, and none in front of a closing parenthesis unless white space was
there. -/
def separator (joined segment : Text) : Text :=
  if joined.endsInIndent = false ∧ (joined = [] ∨ segment.head? = some ')') then [] else [' ']

/-- A text with the content of a line appended. -/
def appendLine (t line : Text) : Text :=
  if line.content = [] then t else t.trimEndIndent ++ separator t line.content ++ line.content

/-- The text joined so far and a line appended to it are at the start of the whole, but for
the spaces and tabs at the end of either, with the separator between them. -/
def Seam (whole joined line : Text) : Prop :=
  joined.trimEndIndent ++ separator joined line.content ++ line.content.trimEndIndent <+: whole

/-- A separator is a space or nothing. -/
theorem unspaced_separator (joined segment : Text) : (separator joined segment).unspaced = [] := by
  unfold separator
  split <;> rfl

/-- A joined line keeps all its other characters. -/
theorem unspaced_appendLine (t line : Text) :
    (appendLine t line).unspaced = t.unspaced ++ line.unspaced := by
  unfold appendLine
  split
  · rename_i hnil
    rw [← unspaced_content line, hnil]
    exact (List.append_nil _).symm
  · rw [unspaced_append, unspaced_append, unspaced_trimEndIndent, unspaced_separator,
      List.append_nil, unspaced_content]

/-- Nothing but spaces and tabs is lost. -/
theorem unspaced_foldl_appendLine (t : Text) (rest : List Text) :
    (rest.foldl appendLine t).unspaced = (t :: rest).flatMap unspaced := by
  induction rest generalizing t with
  | nil => simp
  | cons line rest ih =>
    rw [List.foldl_cons, ih, List.flatMap_cons, unspaced_appendLine, List.flatMap_cons,
      List.flatMap_cons, List.append_assoc]

/-- What a line with content adds : a separator and the content, trimmed later. -/
theorem trimEndIndent_appendLine {line : Text} (h : line.hasContent = true) (t : Text) :
    (appendLine t line).trimEndIndent =
      t.trimEndIndent ++ separator t line.content ++ line.content.trimEndIndent := by
  have hne : line.content ≠ [] := fun hnil => by simp [content_eq_nil_iff.mp hnil] at h
  rw [appendLine, if_neg hne, trimEndIndent_append (by rw [hasContent_content, h])]

/-- What is joined already stays in front. -/
theorem trimEndIndent_prefix_appendLine (t line : Text) :
    t.trimEndIndent <+: (appendLine t line).trimEndIndent := by
  cases h : line.hasContent with
  | false =>
    have hsame : appendLine t line = t := if_pos (content_eq_nil_iff.mpr h)
    exact hsame.symm ▸ List.prefix_rfl
  | true =>
    rw [trimEndIndent_appendLine h, List.append_assoc]
    exact List.prefix_append _ _

/-- It stays there however many lines come after it. -/
theorem trimEndIndent_prefix_foldl (t : Text) (rest : List Text) :
    t.trimEndIndent <+: rest.foldl appendLine t := by
  have htrim : t.trimEndIndent <+: (rest.foldl appendLine t).trimEndIndent := by
    induction rest generalizing t with
    | nil => exact List.prefix_rfl
    | cons line rest ih => exact (trimEndIndent_prefix_appendLine t line).trans (ih _)
  exact htrim.trans (trimEndIndent_isPrefix _)

/-- Lines appended after a line leave its seam alone. -/
theorem seam_foldl (t : Text) (pre post : List Text) {line : Text} (h : line.hasContent = true) :
    Seam ((pre ++ line :: post).foldl appendLine t) (pre.foldl appendLine t) line := by
  rw [List.foldl_append, List.foldl_cons, Seam, ← trimEndIndent_appendLine h]
  exact trimEndIndent_prefix_foldl _ post

/-- The content of the last line is at the end. -/
theorem content_suffix_foldl (t : Text) (pre : List Text) (last : Text) :
    last.content <:+ (pre ++ [last]).foldl appendLine t := by
  rw [List.foldl_append, List.foldl_cons, List.foldl_nil, appendLine]
  split
  · rename_i hnil
    rw [hnil]
    exact List.nil_suffix
  · exact List.suffix_append _ _

end Text

open Text

/-! ## Joined lines -/

namespace Joined

/-- A segment goes behind the trimmed text and a separator. -/
theorem text_add (j : Joined) (segment : Text) :
    (j.add segment).text = j.text.trimEndIndent ++ separator j.text segment ++ segment := by
  unfold add separator
  cases h : j.text.endsInIndent with
  | true => simp
  | false =>
    rw [trimEndIndent_of_endsInIndent h]
    simp only [Bool.false_eq_true, if_false, true_and]
    split
    · simp
    · simp

/-- Adding a line is appending it to the text. -/
theorem text_addLine (j : Joined) (line : Text) :
    (j.addLine line).text = appendLine j.text line := by
  unfold addLine appendLine
  split
  · rfl
  · exact j.text_add line.content

theorem text_foldl (j : Joined) (rest : List Text) :
    (rest.foldl addLine j).text = rest.foldl appendLine j.text := by
  induction rest generalizing j with
  | nil => rfl
  | cons line rest ih => rw [List.foldl_cons, ih, text_addLine, List.foldl_cons]

/-- The text of joined lines, without the count of what was added last. -/
theorem text_ofLines (first : Text) (rest : List Text) :
    (ofLines first rest).text = rest.foldl appendLine first :=
  text_foldl ⟨first, 0⟩ rest

/-- What the last of two lines adds is its content, with the separator unless that takes the
place of white space. -/
theorem exists_lastAdded (first line : Text) :
    ∃ before gap, (ofLines first [line]).text = before ++ gap ++ line.content ∧
      (gap = [] ∨ gap = [' ']) ∧
        (ofLines first [line]).lastAdded = (gap ++ line.content).length := by
  have hof : ofLines first [line] = addLine ⟨first, 0⟩ line := rfl
  rw [hof]
  unfold addLine
  split
  · rename_i hnil
    exact ⟨first, [], by simp [hnil], .inl rfl, by simp [hnil]⟩
  · unfold add
    split
    · exact ⟨first.trimEndIndent ++ [' '], [], by simp, .inl rfl, rfl⟩
    · split
      · exact ⟨first, [], by simp, .inl rfl, rfl⟩
      · exact ⟨first, [' '], by simp, .inr rfl, rfl⟩

end Joined

/-- A text made of a line and the lines after it : it has all their characters but spaces and
tabs, and every line with content is appended at a seam. -/
structure Text.JoinOf (whole first : Text) (rest : List Text) : Prop where
  unspaced : whole.unspaced = (first :: rest).flatMap Text.unspaced
  seam : ∀ pre line post, rest = pre ++ line :: post → line.hasContent = true →
    Seam whole (Joined.ofLines first pre).text line

/-- The loop makes a join of the lines. -/
theorem Joined.joinOf_ofLines (first : Text) (rest : List Text) :
    (ofLines first rest).text.JoinOf first rest where
  unspaced := by rw [text_ofLines, unspaced_foldl_appendLine]
  seam := by
    rintro pre line post rfl hline
    rw [text_ofLines, text_ofLines]
    exact seam_foldl first pre post hline

end Keystroke
