import Keystroke.Text.Basic

/-!
# Scanning a line

Where the indentation of a line ends and its content starts, and trimming by Unicode
white space. `leadingIndent` and `content` cut a line in two : `leadingIndent_append_content`.
-/

namespace Keystroke.Text

/-- The run of spaces and tabs a line starts with. -/
def leadingIndent (t : Text) : Text :=
  t.takeWhile isIndent

/-- What follows the leading spaces and tabs. -/
def content (t : Text) : Text :=
  t.dropWhile isIndent

/-- Index of the first character that is not a space or a tab. -/
def firstContent? (t : Text) : Option Nat :=
  t.findIdx? fun c => !isIndent c

/-- Index of the last character that is not a space or a tab. -/
def lastContent? (t : Text) : Option Nat :=
  (firstContent? t.reverse).map fun i => t.length - i - 1

/-- Whether there is more than spaces and tabs. -/
def hasContent (t : Text) : Bool :=
  t.any fun c => !isIndent c

/-- Nothing but Unicode white space, or nothing at all. -/
def isBlankLine (t : Text) : Bool :=
  t.all isSpace

/-- The text without white space in front. -/
def trimStart (t : Text) : Text :=
  t.dropWhile isSpace

/-- The text without white space behind. -/
def trimEnd (t : Text) : Text :=
  (trimStart t.reverse).reverse

/-- The text without the spaces and tabs at its end. -/
def trimEndIndent (t : Text) : Text :=
  (content t.reverse).reverse

/-- Whether the last character is a space or a tab. -/
def endsInIndent (t : Text) : Bool :=
  t.getLast?.any isIndent

/-- A line is its indentation and its content. -/
theorem leadingIndent_append_content (t : Text) : leadingIndent t ++ content t = t :=
  List.takeWhile_append_dropWhile

theorem isIndent_of_mem_leadingIndent {t : Text} {c : Char} (h : c ∈ leadingIndent t) :
    isIndent c = true := by
  induction t with
  | nil => simp [leadingIndent] at h
  | cons a t ih =>
    by_cases ha : isIndent a = true
    · have hs : leadingIndent (a :: t) = a :: leadingIndent t := by simp [leadingIndent, ha]
      rcases List.mem_cons.mp (hs ▸ h) with rfl | h
      · exact ha
      · exact ih h
    · simp [leadingIndent, ha] at h

@[simp] theorem hasContent_nil : hasContent [] = false := rfl

@[simp] theorem isSome_firstContent? (t : Text) : (firstContent? t).isSome = hasContent t :=
  List.findIdx?_isSome

@[simp] theorem isSome_lastContent? (t : Text) : (lastContent? t).isSome = hasContent t := by
  simp [lastContent?, hasContent]

/-- The first character is the first content, or the rest is looked at. -/
theorem firstContent?_cons (c : Char) (t : Text) :
    firstContent? (c :: t) = if isIndent c then (firstContent? t).map (· + 1) else some 0 := by
  by_cases h : isIndent c = true <;> simp [firstContent?, List.findIdx?_cons, h]

/-- The content starts where the leading indentation ends. -/
theorem getD_firstContent? (t : Text) :
    (firstContent? t).getD t.length = (leadingIndent t).length := by
  induction t with
  | nil => rfl
  | cons c t ih =>
    by_cases h : isIndent c = true
    · rw [firstContent?_cons, if_pos h]
      cases hf : firstContent? t with
      | none => simp [hf] at ih; simp [leadingIndent, h] at ih ⊢; exact ih
      | some i => simp [hf] at ih; simp [leadingIndent, h] at ih ⊢; exact ih
    · rw [firstContent?_cons, if_neg h]
      simp [leadingIndent, h]

end Keystroke.Text
