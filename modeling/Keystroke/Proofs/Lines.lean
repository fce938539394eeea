import Keystroke.Text.Lines

/-!
# What a cut into lines is

`IsLines` says when a list of lines is the cut of a text : contents without line breaks,
each terminator but the last one line break, the last one empty, and no line break that
two neighbours would make together. A text has exactly one such cut, the one
`Text.lines` finds (`isLines_lines`, `lines_flatMap`), so the lines of an edited text are
found by writing them down.

Two texts fuse when the first ends in a carriage return and the second starts with a
line feed. Between texts that do not fuse, reading in two pieces is reading in one.
-/

namespace Keystroke

namespace Text

/-- The text is one line break. -/
def IsBreak (t : Text) : Prop :=
  t = ['\r', '\n'] ∨ ∃ c, isLineBreak c = true ∧ t = [c]

/-- No character of the text ends a line. -/
def Unbroken (t : Text) : Prop :=
  ∀ c ∈ t, isLineBreak c = false

/-- A carriage return at the end of one text and a line feed at the start of the next. -/
def Fuses (s t : Text) : Prop :=
  s.getLast? = some '\r' ∧ t.head? = some '\n'

instance (t : Text) : Decidable t.Unbroken :=
  List.decidableBAll (fun c => isLineBreak c = false) t

instance (s t : Text) : Decidable (Fuses s t) :=
  inferInstanceAs (Decidable (_ ∧ _))

/-- A carriage return ends a line. -/
theorem ne_return {c : Char} (hc : isLineBreak c = false) : c ≠ '\r' := by
  rintro rfl
  revert hc
  decide

/-! ## Unbroken texts -/

@[simp] theorem unbroken_nil : Unbroken [] := by
  simp [Unbroken]

@[simp] theorem unbroken_cons {c : Char} {t : Text} :
    Unbroken (c :: t) ↔ isLineBreak c = false ∧ Unbroken t := by
  simp [Unbroken]

@[simp] theorem unbroken_append {s t : Text} : Unbroken (s ++ t) ↔ Unbroken s ∧ Unbroken t := by
  simp [Unbroken, or_imp, forall_and]

/-- Characters of an unbroken text make unbroken text. -/
theorem Unbroken.of_subset {s t : Text} (ht : Unbroken t) (h : s ⊆ t) : Unbroken s :=
  fun c hc => ht c (h hc)

theorem Unbroken.take {t : Text} (h : Unbroken t) (n : Nat) : Unbroken (t.take n) :=
  h.of_subset (List.take_subset n t)

theorem Unbroken.drop {t : Text} (h : Unbroken t) (n : Nat) : Unbroken (t.drop n) :=
  h.of_subset (List.drop_subset n t)

/-! ## Fusing -/

@[simp] theorem not_fuses_nil_left (t : Text) : ¬Fuses [] t := by
  simp [Fuses]

@[simp] theorem not_fuses_nil_right (s : Text) : ¬Fuses s [] := by
  simp [Fuses]

/-- Nothing fuses without a carriage return in front. -/
theorem Unbroken.not_fuses {s : Text} (h : Unbroken s) (t : Text) : ¬Fuses s t := by
  rintro ⟨hs, -⟩
  exact ne_return (h '\r' (List.mem_of_getLast? hs)) rfl

/-- Nothing fuses without a line feed behind. -/
theorem Unbroken.not_fuses_right {t : Text} (h : Unbroken t) (s : Text) : ¬Fuses s t := by
  rintro ⟨-, ht⟩
  have hc : isLineBreak '\n' = false := h '\n' (List.mem_of_head? ht)
  revert hc
  decide

/-- Only the last character in front matters. -/
theorem Fuses.cons {s t : Text} (h : Fuses s t) (c : Char) : Fuses (c :: s) t :=
  ⟨by rw [List.getLast?_cons, h.1, Option.getD_some], h.2⟩

/-- Only the first character behind matters. -/
theorem Fuses.append_right {s t : Text} (h : Fuses s t) (d : Text) : Fuses s (t ++ d) := by
  obtain ⟨u, rfl⟩ := List.head?_eq_some_iff.mp h.2
  exact ⟨h.1, rfl⟩

/-- What is further in front does not matter, as long as there is something in between. -/
theorem fuses_append_left {s : Text} (hs : s ≠ []) (r t : Text) :
    Fuses (r ++ s) t ↔ Fuses s t := by
  rw [Fuses, Fuses, List.getLast?_append, List.getLast?_eq_some_getLast hs, Option.some_or]

/-- What is further behind does not matter either. -/
theorem fuses_append_right {t : Text} (ht : t ≠ []) (s r : Text) :
    Fuses s (t ++ r) ↔ Fuses s t := by
  obtain ⟨c, u, rfl⟩ := List.exists_cons_of_ne_nil ht
  simp [Fuses]

/-- A text in between that is not empty fuses in place of what follows it. -/
theorem fuses_append_cases {s t d : Text} (h : Fuses s (t ++ d)) :
    Fuses s t ∨ t = [] ∧ Fuses s d := by
  cases t with
  | nil => exact .inr ⟨rfl, h⟩
  | cons c t => exact .inl (by rwa [fuses_append_right (by simp)] at h)

/-- Texts that fuse at neither of two places, which may be one, can be put together in
either order. -/
theorem not_fuses_of_append {s t d : Text} (hst : ¬Fuses s t) (hd : ¬Fuses (s ++ t) d) :
    ¬Fuses s (t ++ d) ∧ ¬Fuses t d := by
  refine ⟨fun h => ?_, fun h => ?_⟩
  · rcases fuses_append_cases h with h | ⟨rfl, h⟩
    · exact hst h
    · exact hd (by simpa using h)
  · have ht : t ≠ [] := by
      rintro rfl
      exact not_fuses_nil_left d h
    exact hd ((fuses_append_left ht s d).mpr h)

/-- Two cuts of a text that are not inside a break. -/
theorem not_fuses_append_left {s t d : Text} (hs : ¬Fuses s (t ++ d)) (ht : ¬Fuses t d) :
    ¬Fuses (s ++ t) d := by
  cases t with
  | nil => simpa using hs
  | cons c t => rwa [fuses_append_left (by simp)]

/-- A break has a character. -/
theorem IsBreak.ne_nil {e : Text} (h : IsBreak e) : e ≠ [] := by
  rcases h with rfl | ⟨c, -, rfl⟩ <;> simp

/-- Every character of a break ends a line, also the line feed behind a carriage return. -/
theorem IsBreak.isLineBreak_of_mem {e : Text} (h : IsBreak e) {c : Char} (hc : c ∈ e) :
    isLineBreak c = true := by
  rcases h with rfl | ⟨d, hd, rfl⟩
  · simp only [List.mem_cons, List.not_mem_nil, or_false] at hc
    rcases hc with rfl | rfl <;> decide
  · rwa [List.mem_singleton.mp hc]

/-! ## Reading one piece -/

/-- A character that ends no line is the first of the first line. -/
theorem lines_cons {c : Char} (hc : isLineBreak c = false) (t : Text) :
    lines (c :: t) = consFirst c (lines t) := by
  rw [lines, if_neg (by simp [hc])]
  exact fun _ h _ => ne_return hc h

/-- Put a text in front of the first line. -/
theorem lines_unbroken_append {s : Text} (hs : Unbroken s) {t : Text} {l : Line} {ls : List Line}
    (ht : lines t = l :: ls) :
    lines (s ++ t) = { l with content := s ++ l.content } :: ls := by
  induction s with
  | nil => simpa using ht
  | cons c s ih =>
    obtain ⟨hc, hs⟩ := unbroken_cons.mp hs
    rw [List.cons_append, lines_cons hc, ih hs, consFirst]
    rfl

/-- A break in front of a text ends an empty line. -/
theorem lines_break_append {e t : Text} (he : IsBreak e) (hf : ¬Fuses e t) :
    lines (e ++ t) = ⟨[], e⟩ :: lines t := by
  rcases he with rfl | ⟨c, hc, rfl⟩
  · rfl
  · rw [List.singleton_append, lines, if_pos hc]
    rintro u rfl rfl
    exact hf ⟨rfl, rfl⟩

end Text

/-! ## The one cut -/

open Text

/-- A cut of a text into lines. A terminator does not fuse with what comes after it. -/
inductive IsLines : List Line → Prop
  | last {c : Text} : Unbroken c → IsLines [⟨c, []⟩]
  | cons {c e : Text} {ls : List Line} : Unbroken c → IsBreak e →
      ¬Fuses e (ls.flatMap Line.toText) → IsLines ls → IsLines (⟨c, e⟩ :: ls)

/-- The lines of a text are a cut. -/
theorem isLines_lines (t : Text) : IsLines (lines t) := by
  fun_induction lines t with
  | case1 => exact .last unbroken_nil
  | case2 t ih => exact .cons unbroken_nil (.inl rfl) (by simp [Fuses]) ih
  | case3 c t hne hc ih =>
    refine .cons unbroken_nil (.inr ⟨c, hc, rfl⟩) ?_ ih
    rw [flatten_lines]
    rintro ⟨hl, ht⟩
    obtain ⟨u, rfl⟩ := List.head?_eq_some_iff.mp ht
    exact hne u (by simpa using hl) rfl
  | case4 c t hne hc ih =>
    have hc : isLineBreak c = false := by simpa using hc
    generalize lines t = ls at ih
    cases ih with
    | last hu => exact .last (unbroken_cons.mpr ⟨hc, hu⟩)
    | cons hu he hf hls => exact .cons (unbroken_cons.mpr ⟨hc, hu⟩) he hf hls

/-- A text without a line break, or one cut at its first. -/
theorem unbroken_or_exists_break (t : Text) :
    Unbroken t ∨ ∃ s e u, t = s ++ e ++ u ∧ Unbroken s ∧ IsBreak e ∧ ¬Fuses e u := by
  rw [← flatten_lines t]
  generalize lines t = ls, isLines_lines t = h
  cases h with
  | last hu => exact .inl (by simpa [Line.toText] using hu)
  | cons hu he hf _ => exact .inr ⟨_, _, _, rfl, hu, he, hf⟩

/-- A cut is found again in the text its lines make. -/
theorem lines_flatMap {ls : List Line} (h : IsLines ls) :
    lines (ls.flatMap Line.toText) = ls := by
  induction h with
  | last hc => simpa [Line.toText] using lines_unbroken_append hc (t := []) rfl
  | cons hc he hf _ ih =>
    rw [List.flatMap_cons, Line.toText, List.append_assoc,
      lines_unbroken_append hc (lines_break_append he hf), ih]
    simp

/-- Only characters that end lines are outside the contents. -/
theorem IsLines.isLineBreak_of_mem_terminator {ls : List Line} (h : IsLines ls) {l : Line}
    (hl : l ∈ ls) {c : Char} (hc : c ∈ l.terminator) : isLineBreak c = true := by
  induction h with
  | last =>
    rw [List.mem_singleton.mp hl] at hc
    exact absurd hc List.not_mem_nil
  | cons _ he _ _ ih =>
    rcases List.mem_cons.mp hl with rfl | hl
    · exact he.isLineBreak_of_mem hc
    · exact ih hl

/-- The contents of the lines of a text have its characters, the line breaks aside. -/
theorem exists_mem_content_iff {t : Text} {c : Char} :
    (∃ l ∈ lines t, c ∈ l.content) ↔ c ∈ t ∧ isLineBreak c = false := by
  constructor
  · rintro ⟨l, hl, hc⟩
    refine ⟨?_, isLineBreak_of_mem_lines hl hc⟩
    rw [← flatten_lines t]
    exact List.mem_flatMap.mpr ⟨l, hl, List.mem_append_left _ hc⟩
  · rintro ⟨hc, hbreak⟩
    rw [← flatten_lines t] at hc
    obtain ⟨l, hl, hc⟩ := List.mem_flatMap.mp hc
    refine ⟨l, hl, (List.mem_append.mp hc).resolve_right fun he => ?_⟩
    rw [(isLines_lines t).isLineBreak_of_mem_terminator hl he] at hbreak
    cases hbreak

end Keystroke
