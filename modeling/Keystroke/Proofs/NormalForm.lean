import Keystroke.Proofs.IndentColumn

/-!
# Normal forms of indentation

Texts that differ only in how their indentation is written become one text in a style : what
comes out depends on the width of the indentation and on what follows it, and shows both
(`IndentStyle.normalize_eq_normalize_iff`). All other laws of normalising are read off that.
They need room for the text (`IndentStyle.Fits`), since a width that no word holds is lost and
no text takes more than so many bytes (`IndentStyle.normalize?_wide`). A tab counts as a full
tab size in this width and goes up to the next stop on the screen. The two agree on indentation
that is in a style, since there no space stands in front of a tab
(`IndentStyle.stopWidth_ofWidth`).
-/

namespace Keystroke

open Text

namespace IndentStyle

variable (s : IndentStyle)

/-! ## What determines the normal form -/

/-- Two texts become one exactly if their indentation is as wide and the rest is the same. -/
theorem normalize_eq_normalize_iff {t u : Text}
    (ht : t.leadingIndent.spacing s.tabSize ≤ maxWord)
    (hu : u.leadingIndent.spacing s.tabSize ≤ maxWord) :
    s.normalize t = s.normalize u ↔
      t.leadingIndent.spacing s.tabSize = u.leadingIndent.spacing s.tabSize ∧
        t.content = u.content := by
  constructor
  · intro h
    refine ⟨?_, ?_⟩
    · rw [← spacing_leadingIndent_normalize ht, h, spacing_leadingIndent_normalize hu]
    · rw [← s.content_normalize t, h, s.content_normalize]
  · rintro ⟨hwidth, hcontent⟩
    rw [normalize_eq ht, normalize_eq hu, hwidth, hcontent]

/-! ## Its width on the screen -/

/-- Indentation in a style ends in the cell that its width says. -/
theorem stopWidth_ofWidth (width : Nat) : stopWidth s.tabSize (s.ofWidth width) = width := by
  unfold ofWidth
  split
  · rw [stopWidth, cellAfterIndent_spaces, Nat.zero_add]
  · rename_i hstyle
    have hlevels : List.replicate (width / s.tabSize) '\t' = s.ofLevels (width / s.tabSize) := by
      rw [ofLevels, oneIndent, if_neg hstyle, List.flatten_replicate_singleton]
    have hstop : cellAfterIndent s.tabSize 0 (s.ofLevels (width / s.tabSize)) =
        width / s.tabSize * s.tabSize := s.stopWidth_ofLevels _
    rw [stopWidth, hlevels, cellAfterIndent_append, hstop, cellAfterIndent_spaces,
      Nat.div_add_mod']

theorem visibleColumn_ofWidth {width : Nat} (h : width ≤ maxWord) :
    visibleColumn (s.ofWidth width) ((s.ofWidth width).length + 1) s.tabSize = width := by
  have hend : StartsCluster [] := by simp [StartsCluster]
  have hwidth := s.stopWidth_ofWidth width
  have hcolumn : visibleColumn (s.ofWidth width ++ []) ((s.ofWidth width).length + 1) s.tabSize =
      stopWidth s.tabSize (s.ofWidth width) :=
    visibleColumn_indent (s.allIndent_ofWidth width) hend (by omega)
  rwa [List.append_nil, hwidth] at hcolumn

/-! ## The laws of normalising -/

/-- Normalising brings the indentation of every text that there is room for to one form. -/
structure Normalizes : Prop where
  /-- Every such text has a normal form. -/
  total : ∀ t, s.Fits t → s.normalize? t = some (s.normalize t)
  /-- The width of the indentation stays. -/
  spacing : ∀ t, s.Fits t →
    (s.normalize t).leadingIndent.spacing s.tabSize = t.leadingIndent.spacing s.tabSize
  /-- What follows the indentation stays. -/
  content : ∀ t, s.Fits t → (s.normalize t).content = t.content
  /-- The new indentation takes as many cells as it is wide. -/
  cells : ∀ t, s.Fits t → visibleColumn? (s.normalize t).leadingIndent
      ((s.normalize t).leadingIndent.length + 1) s.tabSize =
    some (t.leadingIndent.spacing s.tabSize)
  /-- A normal form is its own. -/
  idempotent : ∀ t, s.Fits t → s.normalize? (s.normalize t) = some (s.normalize t)
  /-- Two texts have one normal form exactly if the width of their indentation and what follows
  it are the same. -/
  eq_iff : ∀ t u, s.Fits t → s.Fits u → (s.normalize? t = s.normalize? u ↔
    t.leadingIndent.spacing s.tabSize = u.leadingIndent.spacing s.tabSize ∧
      t.content = u.content)
  /-- The form in the other style, or in this one, has the same normal form as the text. -/
  restyled : ∀ spaces t, s.Fits t →
    ({ s with insertSpaces := spaces }.normalize? t).bind s.normalize? = s.normalize? t
  /-- Spaces and tabs in front of a text may be normalised before. -/
  append : ∀ t u, AllIndent t → s.Fits (t ++ u) →
    ((s.normalize? t).bind fun n => s.normalize? (n ++ u)) = s.normalize? (t ++ u)

/-- Where a tab has a width, normalising has these laws in both styles. -/
theorem normalizes (h : 0 < s.tabSize) : s.Normalizes where
  total _ ht := ht.normalize?_eq h
  spacing _ ht := spacing_leadingIndent_normalize ht.spacing_le
  content t _ := s.content_normalize t
  cells t ht := by
    rw [visibleColumn?_eq_some h, leadingIndent_normalize,
      (allIndent_leadingIndent t).indentWidth_eq ht.spacing_le,
      s.visibleColumn_ofWidth ht.spacing_le]
  idempotent t ht := by rw [ht.normalize.normalize?_eq h, normalize_normalize]
  eq_iff t u ht hu := by
    rw [ht.normalize?_eq h, hu.normalize?_eq h, Option.some_inj]
    exact s.normalize_eq_normalize_iff ht.spacing_le hu.spacing_le
  restyled spaces t ht := by
    -- both styles count a tab as the same width, and ask for the same room
    have hother : Fits { s with insertSpaces := spaces } t := ht
    have hfits : s.Fits (normalize { s with insertSpaces := spaces } t) := hother.normalize
    rw [hother.normalize?_eq h, Option.bind_some, hfits.normalize?_eq h, ht.normalize?_eq h]
    exact congrArg some (s.normalize_congr
      (indentWidth_normalize { s with insertSpaces := spaces } t)
      (content_normalize { s with insertSpaces := spaces } t))
  append t u ht hfits := by
    rw [(hfits.left ht).normalize?_eq h, Option.bind_some,
      (hfits.normalize_append ht).normalize?_eq h, hfits.normalize?_eq h,
      normalize_normalize_append s ht]

/-- With tabs of three cells, a space makes the indentation as wide in front of a tab as behind
it. -/
theorem normalizes_three :
    let s : IndentStyle := ⟨3, false⟩
    s.Normalizes ∧ s.normalize? [' ', '\t', 'x'] = s.normalize? ['\t', ' ', 'x'] := by
  intro s
  have hs : s.Normalizes := normalizes s (by decide)
  exact ⟨hs, (hs.eq_iff _ _ (by decide) (by decide)).mpr ⟨by decide, by decide⟩⟩

/-- With a tab that is as wide as half of all words there is no room for one in front of a
letter, and the width of two is lost. -/
theorem normalize?_wide :
    let s : IndentStyle := ⟨maxBytes + 1, false⟩
    1 ≤ s.tabSize ∧ s.normalize? ['\t', 'x'] = none ∧
      s.normalize? ['\t', '\t', 'x'] = some ['x'] ∧
        Text.spacing s.tabSize ['\t', '\t'] ≠ Text.spacing s.tabSize [] := by
  decide

end IndentStyle

end Keystroke
