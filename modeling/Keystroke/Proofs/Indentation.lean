import Keystroke.Indentation

/-!
# Indentation in a style

Putting a text in a style changes its leading spaces and tabs only. What follows them
stays (`IndentStyle.content_normalize`), and so does their width as a sum of words
(`IndentStyle.indentWidth_normalize`), so the same text comes out whether a part of the
indentation was put in the style before or not (`IndentStyle.normalize_normalize_append`).
How wide the indentation is without that bound is its spacing (`Text.spacing`). A text fits
a style if its spacing and its content are room for a text (`IndentStyle.Fits`), and then
the two widths are one and the text can be put in the style.
-/

namespace Keystroke

namespace Text

/-! ## Spaces and tabs -/

/-- Nothing but spaces and tabs. -/
def AllIndent (t : Text) : Prop :=
  ∀ c ∈ t, isIndent c = true

instance (t : Text) : Decidable t.AllIndent :=
  List.decidableBAll (fun c => isIndent c = true) t

/-- Indentation is a part of its line. -/
theorem length_leadingIndent_le (t : Text) : t.leadingIndent.length ≤ t.length :=
  (List.takeWhile_prefix _).length_le

/-- Behind it the content starts. -/
theorem drop_length_leadingIndent (t : Text) : t.drop t.leadingIndent.length = t.content :=
  (congrArg (List.drop _) (leadingIndent_append_content t)).symm.trans List.drop_left

theorem allIndent_leadingIndent (t : Text) : AllIndent t.leadingIndent :=
  fun _ => isIndent_of_mem_leadingIndent

theorem allIndent_replicate {c : Char} (hc : isIndent c = true) (n : Nat) :
    AllIndent (List.replicate n c) := by
  intro x hx
  rwa [List.eq_of_mem_replicate hx]

/-- There is no content in spaces and tabs. -/
theorem AllIndent.isBlankLine {t : Text} (h : AllIndent t) : t.isBlankLine = true :=
  List.all_eq_true.mpr fun c hc => isSpace_of_isIndent (h c hc)

theorem AllIndent.append {s t : Text} (hs : AllIndent s) (ht : AllIndent t) :
    AllIndent (s ++ t) :=
  fun c hc => (List.mem_append.mp hc).elim (hs c) (ht c)

/-- In front of a text they are indentation. -/
theorem AllIndent.leadingIndent_append {s : Text} (h : AllIndent s) (t : Text) :
    leadingIndent (s ++ t) = s ++ leadingIndent t :=
  List.takeWhile_append_of_pos h

/-- They are no part of its content. -/
theorem AllIndent.content_append {s : Text} (h : AllIndent s) (t : Text) :
    content (s ++ t) = content t :=
  List.dropWhile_append_of_pos h

/-- On their own they are all indentation. -/
theorem AllIndent.leadingIndent {t : Text} (h : AllIndent t) : t.leadingIndent = t := by
  have happend := h.leadingIndent_append []
  rwa [List.append_nil, show Text.leadingIndent [] = [] from rfl, List.append_nil] at happend

theorem AllIndent.content {t : Text} (h : AllIndent t) : t.content = [] := by
  have happend := h.content_append []
  rwa [List.append_nil] at happend

/-- A line is cut where its content starts, so there is nothing to cut from its content. -/
theorem leadingIndent_content (t : Text) : leadingIndent (content t) = [] := by
  have h := allIndent_leadingIndent t
  have hcut : leadingIndent t ++ leadingIndent (content t) = leadingIndent t ++ [] := by
    rw [← h.leadingIndent_append, leadingIndent_append_content, List.append_nil]
  exact List.append_cancel_left hcut

/-- The content of a line has no indentation to lose. -/
theorem content_content (t : Text) : content (content t) = content t := by
  have h := leadingIndent_append_content (content t)
  rwa [leadingIndent_content, List.nil_append] at h

end Text

open Text

/-! ## Widths -/

/-- The spaces of a text and its tabs, each tab counted as a full tab size. -/
def Text.spacing (tabSize : Nat) (t : Text) : Nat :=
  t.count ' ' + tabSize * t.count '\t'

namespace Text

/-- Widths of parts add up. -/
theorem spacing_append (tabSize : Nat) (s t : Text) :
    (s ++ t).spacing tabSize = s.spacing tabSize + t.spacing tabSize := by
  rw [spacing, spacing, spacing, List.count_append, List.count_append, Nat.mul_add]
  omega

theorem spacing_spaces (tabSize n : Nat) : Text.spacing tabSize (List.replicate n ' ') = n := by
  rw [spacing, List.count_replicate_self, List.count_eq_zero_of_not_mem (by simp), Nat.mul_zero,
    Nat.add_zero]

theorem spacing_tabs (tabSize n : Nat) :
    Text.spacing tabSize (List.replicate n '\t') = tabSize * n := by
  rw [spacing, List.count_replicate_self, List.count_eq_zero_of_not_mem (by simp), Nat.zero_add]

/-- The first space or tab takes its width and leaves the rest. -/
theorem AllIndent.spacing_cons {tabSize : Nat} {c : Char} {t : Text} (h : AllIndent (c :: t)) :
    spacing tabSize (c :: t) = (if c = '\t' then tabSize else 1) + t.spacing tabSize := by
  unfold spacing
  rcases (isIndent_iff c).mp (h c List.mem_cons_self) with rfl | rfl
  · rw [if_neg (by decide), List.count_cons_self, List.count_cons_of_ne (by decide)]
    omega
  · rw [if_pos rfl, List.count_cons_self, List.count_cons_of_ne (by decide), Nat.mul_succ]
    omega

/-- Every space and every tab counts. -/
theorem AllIndent.length_le_spacing {tabSize : Nat} (hpos : 0 < tabSize) {t : Text}
    (h : AllIndent t) : t.length ≤ t.spacing tabSize := by
  induction t with
  | nil => exact Nat.zero_le _
  | cons c t ih =>
    have hle := ih fun d hd => h d (List.mem_cons_of_mem _ hd)
    rw [h.spacing_cons, List.length_cons]
    split <;> omega

/-- Only the empty text has no width. -/
theorem AllIndent.spacing_eq_zero_iff {tabSize : Nat} (hpos : 0 < tabSize) {t : Text}
    (h : AllIndent t) : t.spacing tabSize = 0 ↔ t = [] := by
  constructor
  · intro hzero
    have hle := h.length_le_spacing hpos
    exact List.length_eq_zero_iff.mp (by omega)
  · rintro rfl
    rfl

end Text

section

variable {tabSize : Nat}

/-- A sum of words is a word. -/
theorem indentWidth_le_maxWord (tabSize : Nat) (t : Text) : indentWidth tabSize t ≤ maxWord := by
  cases t with
  | nil => exact Nat.zero_le _
  | cons c t => exact addWord_le_maxWord _ _

/-- Sums of parts add up as words. -/
theorem indentWidth_append (tabSize : Nat) (s t : Text) :
    indentWidth tabSize (s ++ t) = addWord (indentWidth tabSize s) (indentWidth tabSize t) := by
  induction s with
  | nil =>
    have hle := indentWidth_le_maxWord tabSize t
    rw [List.nil_append, indentWidth, addWord_of_le (by omega), Nat.zero_add]
  | cons c s ih => rw [List.cons_append, indentWidth, indentWidth, ih, addWord_assoc]

/-- Spaces and tabs have the width they are counted to, as far as a word holds it. -/
theorem Text.AllIndent.indentWidth_eq {t : Text} (h : AllIndent t)
    (hle : t.spacing tabSize ≤ maxWord) : indentWidth tabSize t = t.spacing tabSize := by
  induction t with
  | nil => rfl
  | cons c t ih =>
    rw [h.spacing_cons] at hle ⊢
    rw [indentWidth, ih (fun d hd => h d (List.mem_cons_of_mem _ hd)) (by omega),
      addWord_of_le hle]

end

namespace IndentStyle

variable (s : IndentStyle)

theorem allIndent_ofWidth (width : Nat) : AllIndent (s.ofWidth width) := by
  have hspaces (n : Nat) : AllIndent (List.replicate n ' ') := allIndent_replicate (by decide) n
  have htabs (n : Nat) : AllIndent (List.replicate n '\t') := allIndent_replicate (by decide) n
  unfold ofWidth
  split
  · exact hspaces _
  · exact (htabs _).append (hspaces _)

/-- Indentation has the width it is made for. -/
theorem spacing_ofWidth (width : Nat) : (s.ofWidth width).spacing s.tabSize = width := by
  unfold ofWidth
  split
  · exact spacing_spaces _ _
  · rw [spacing_append, spacing_tabs, spacing_spaces, Nat.div_add_mod]

theorem length_ofWidth (width : Nat) : (s.ofWidth width).length = s.lengthOfWidth width := by
  unfold ofWidth lengthOfWidth
  split
  · exact List.length_replicate
  · rw [List.length_append, List.length_replicate, List.length_replicate]

/-- Indentation has no more characters than cells. -/
theorem lengthOfWidth_le (h : 0 < s.tabSize) (width : Nat) : s.lengthOfWidth width ≤ width := by
  have hle := (s.allIndent_ofWidth width).length_le_spacing h
  rwa [length_ofWidth, spacing_ofWidth] at hle

/-- The sum finds a width that is a word. -/
theorem indentWidth_ofWidth {width : Nat} (h : width ≤ maxWord) :
    indentWidth s.tabSize (s.ofWidth width) = width := by
  have hwidth := s.spacing_ofWidth width
  rw [(s.allIndent_ofWidth width).indentWidth_eq (by omega), hwidth]

/-! ## Texts in a style -/

/-- The indentation of a text in a style has the width that is summed up. -/
theorem leadingIndent_normalize (t : Text) :
    leadingIndent (s.normalize t) = s.ofWidth (indentWidth s.tabSize t.leadingIndent) := by
  rw [normalize, (s.allIndent_ofWidth _).leadingIndent_append, leadingIndent_content,
    List.append_nil]

theorem content_normalize (t : Text) : content (s.normalize t) = content t := by
  rw [normalize, (s.allIndent_ofWidth _).content_append, content_content]

/-- The sum over the new indentation is the sum over the old one. -/
theorem indentWidth_normalize (t : Text) :
    indentWidth s.tabSize (s.normalize t).leadingIndent =
      indentWidth s.tabSize t.leadingIndent := by
  rw [leadingIndent_normalize, s.indentWidth_ofWidth (indentWidth_le_maxWord _ _)]

/-- Texts become one if their indentation sums up to one width and the rest is the same. -/
theorem normalize_congr {t u : Text}
    (hwidth : indentWidth s.tabSize t.leadingIndent = indentWidth s.tabSize u.leadingIndent)
    (hcontent : t.content = u.content) : s.normalize t = s.normalize u := by
  rw [normalize, normalize, hwidth, hcontent]

/-- A text in the style stays as it is. -/
theorem normalize_normalize (t : Text) : s.normalize (s.normalize t) = s.normalize t :=
  s.normalize_congr (s.indentWidth_normalize t) (s.content_normalize t)

theorem allIndent_normalize {t : Text} (h : AllIndent t) : AllIndent (s.normalize t) := by
  rw [normalize, h.content, List.append_nil]
  exact s.allIndent_ofWidth _

/-- A text whose indentation is put in the style piece by piece is put in the style. -/
theorem normalize_normalize_append {t : Text} (ht : AllIndent t) (u : Text) :
    s.normalize (s.normalize t ++ u) = s.normalize (t ++ u) := by
  have hn := s.allIndent_normalize ht
  have hwidth := s.indentWidth_normalize t
  rw [hn.leadingIndent, ht.leadingIndent] at hwidth
  refine s.normalize_congr ?_ ?_
  · rw [hn.leadingIndent_append, ht.leadingIndent_append, indentWidth_append, indentWidth_append,
      hwidth]
  · rw [hn.content_append, ht.content_append]

section

variable {s} {t : Text} (hle : t.leadingIndent.spacing s.tabSize ≤ maxWord)

include hle

/-- Without a loss, the new indentation is made for the width of the old one. -/
theorem normalize_eq :
    s.normalize t = s.ofWidth (t.leadingIndent.spacing s.tabSize) ++ t.content := by
  rw [normalize, (allIndent_leadingIndent t).indentWidth_eq hle]

/-- It has that width. -/
theorem spacing_leadingIndent_normalize :
    (s.normalize t).leadingIndent.spacing s.tabSize = t.leadingIndent.spacing s.tabSize := by
  rw [leadingIndent_normalize, spacing_ofWidth, (allIndent_leadingIndent t).indentWidth_eq hle]

/-- Nothing is put in the empty text, and no other text becomes empty. -/
theorem normalize_eq_nil_iff (h : 0 < s.tabSize) : s.normalize t = [] ↔ t = [] := by
  have hindent := allIndent_leadingIndent t
  have hwidth : s.ofWidth (t.leadingIndent.spacing s.tabSize) = [] ↔ t.leadingIndent = [] := by
    rw [← (s.allIndent_ofWidth _).spacing_eq_zero_iff h, spacing_ofWidth,
      hindent.spacing_eq_zero_iff h]
  rw [normalize_eq hle, List.append_eq_nil_iff, hwidth, ← List.append_eq_nil_iff,
    leadingIndent_append_content]

end

/-- So spaces and tabs stay as wide. -/
theorem spacing_normalize {t : Text} (h : AllIndent t) (hle : t.spacing s.tabSize ≤ maxWord) :
    (s.normalize t).spacing s.tabSize = t.spacing s.tabSize := by
  have hspacing := spacing_leadingIndent_normalize (s := s) (t := t) (by rwa [h.leadingIndent])
  rwa [(s.allIndent_normalize h).leadingIndent, h.leadingIndent] at hspacing

/-! ## Texts with room for their indentation -/

/-- There is room for the text with its indentation written in spaces. -/
def Fits (t : Text) : Prop :=
  t.leadingIndent.spacing s.tabSize + t.content.byteLength ≤ maxBytes

instance (t : Text) : Decidable (s.Fits t) :=
  inferInstanceAs (Decidable (_ ≤ _))

namespace Fits

variable {s} {t u : Text}

/-- What there is room for is a word. -/
theorem spacing_le (h : s.Fits t) : t.leadingIndent.spacing s.tabSize ≤ maxWord :=
  le_maxWord (Nat.le_trans (Nat.le_add_right _ _) h)

/-- A text that fits is put in the style. -/
theorem normalize?_eq (h : s.Fits t) (hpos : 0 < s.tabSize) :
    s.normalize? t = some (s.normalize t) := by
  have hwidth := (allIndent_leadingIndent t).indentWidth_eq h.spacing_le
  have hlength := Nat.add_le_add_right
    (s.lengthOfWidth_le hpos (t.leadingIndent.spacing s.tabSize)) t.content.byteLength
  have hroom : ¬(maxBytes < t.leadingIndent.spacing s.tabSize + t.content.byteLength ∨
      maxBytes < s.lengthOfWidth (t.leadingIndent.spacing s.tabSize) + t.content.byteLength) :=
    not_or.mpr ⟨Nat.not_lt_of_le h, Nat.not_lt_of_le (Nat.le_trans hlength h)⟩
  rw [normalize?, hwidth, addWord_of_le (le_maxWord h),
    if_neg (fun hzero => Nat.ne_of_gt hpos hzero.2)]
  exact if_neg hroom

/-- Whether a text fits depends on the width of its indentation and on its content. -/
theorem congr (h : s.Fits t)
    (hspacing : u.leadingIndent.spacing s.tabSize = t.leadingIndent.spacing s.tabSize)
    (hcontent : u.content = t.content) : s.Fits u := by
  rw [Fits, hspacing, hcontent]
  exact h

theorem normalize (h : s.Fits t) : s.Fits (s.normalize t) :=
  h.congr (spacing_leadingIndent_normalize h.spacing_le) (s.content_normalize t)

/-- Spaces and tabs in front of a text that fits do so on their own. -/
theorem left (h : s.Fits (t ++ u)) (ht : AllIndent t) : s.Fits t := by
  rw [Fits, ht.leadingIndent_append, spacing_append] at h
  rw [Fits, ht.leadingIndent, ht.content, byteLength]
  omega

/-- They may be put in the style before. -/
theorem normalize_append (h : s.Fits (t ++ u)) (ht : AllIndent t) :
    s.Fits (s.normalize t ++ u) := by
  have hle : t.spacing s.tabSize ≤ maxWord := by
    have hleft := (h.left ht).spacing_le
    rwa [ht.leadingIndent] at hleft
  have hn := s.allIndent_normalize ht
  refine h.congr ?_ ?_
  · rw [hn.leadingIndent_append, ht.leadingIndent_append, spacing_append, spacing_append,
      s.spacing_normalize ht hle]
  · rw [hn.content_append, ht.content_append]

end Fits

end IndentStyle

end Keystroke
