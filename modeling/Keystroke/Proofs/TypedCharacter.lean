import Keystroke.Proofs.Indentation
import Keystroke.Proofs.Inserted
import Keystroke.Proofs.OneLine
import Mathlib.Data.Option.Basic

/-!
# Typed characters

Whatever a character typed at a caret is read as (`Context.Reading`), its command replaces
a part of the caret's line by a text without line breaks. So the other lines and all
terminators stay, and the line has the character in front of the caret. What was in front
of the caret keeps its content, and what was after it stays or is stepped over, with a
completion in front of it at most (`Context.applies_type_char`).
-/

namespace Keystroke

open Text Position

namespace Text

/-- Up to a place on a line, the indentation ends where the content of the line starts, or
at the place if there is none before it. -/
theorem min_getD_firstContent? (s t : Text) :
    min ((firstContent? (s ++ t)).getD s.length) s.length = s.leadingIndent.length := by
  induction s with
  | nil => simp [leadingIndent]
  | cons c s ih =>
    rw [List.cons_append, firstContent?_cons]
    by_cases hc : isIndent c = true
    · rw [if_pos hc]
      have hlead : leadingIndent (c :: s) = c :: leadingIndent s := by simp [leadingIndent, hc]
      rw [hlead, List.length_cons, List.length_cons, ← ih]
      cases firstContent? (s ++ t) with
      | none => simp
      | some i => simp
    · rw [if_neg hc]
      simp [leadingIndent, hc]

end Text

namespace Context

variable {ctx : Context} {p : Position} {c : Char}

/-! ## Readings -/

/-- What a character typed at a position may be completed with : its closer, or what the
rules put in after it. -/
inductive Completes (ctx : Context) (p : Position) (c : Char) : Text → Prop
  | closer {closer : Char} : ctx.config.closerOf? c = some closer → ctx.Completes p c [closer]
  | append {a : ElectricAction} {t : Text} : ctx.electricAction? c p = some a →
      a.append? = some t → ctx.Completes p c t

theorem electricAction?_eq_some_iff {a : ElectricAction} :
    ctx.electricAction? c p = some a ↔
      ctx.rules.electric? c (ctx.view.lineTokens p.line) p.column = .ok (some a) := by
  unfold electricAction?
  split
  · rename_i a' ha
    rw [ha, Except.ok.injEq]
  · rename_i err herr
    simp [herr]

/-- What is between the indentation of a position's line and the position. -/
def contentBefore (ctx : Context) (p : Position) : Text :=
  let first := min ((ctx.view.firstContentColumn? p.line).getD p.column) p.column
  (ctx.view.lineContent p.line).slice (first - 1) (p.column - 1)

/-- What a character typed at a caret may do. -/
inductive Reading (ctx : Context) (p : Position) (c : Char) : Command → Prop
  | plain : ctx.Reading p c (.type (.point p) [c])
  | stepOver : ctx.charAfter? p = some c →
      ctx.Reading p c (.type (.ofEnds p (p.offset 0 1)) [c])
  | complete {t : Text} : ctx.Completes p c t →
      ctx.Reading p c (.typeOffset (.point p) (c :: t) 0 (-(t.length : Int)))
  | align (line : Nat) :
      ctx.Reading p c (.type (.onLine p.line 1 p.column)
        (ctx.config.normalize (ctx.view.lineContent line).leadingIndent
          ++ ctx.contentBefore p ++ [c]))

/-- The outcome has a command, and it is one a typed character may lead to. -/
def Reads (ctx : Context) (p : Position) (c : Char) (o : Outcome) : Prop :=
  ∃ command, o.command? = some command ∧ ctx.Reading p c command

variable {o : Outcome}

theorem reads_overtype? (h : ctx.overtype? (.caret p) c = some o) : ctx.Reads p c o := by
  unfold overtype? at h
  simp only at h
  split at h
  · rename_i hif
    simp only [Bool.and_eq_true, beq_iff_eq] at hif
    obtain rfl := Option.some.inj h
    exact ⟨_, rfl, .stepOver hif.2⟩
  · cases h

/-- A pair is closed with the closer of the settings, and only if they say so. -/
theorem exists_of_closePair? {s : Selection} (h : ctx.closePair? s c = some o) :
    ∃ closer, ctx.config.autoClosing = true ∧ ctx.config.closerOf? c = some closer ∧
      o = (Outcome.ofCommand (.typeOffset s.range [c, closer] 0 (-1))).withBoundaryBefore := by
  unfold closePair? at h
  split at h
  · rename_i hclosing
    split at h
    · rename_i closer hcloser
      split at h
      · exact ⟨closer, (Bool.and_eq_true_iff.mp hclosing).1, hcloser, (Option.some.inj h).symm⟩
      · cases h
    · cases h
  · cases h

theorem reads_closePair? (h : ctx.closePair? (.caret p) c = some o) : ctx.Reads p c o := by
  obtain ⟨closer, -, hcloser, rfl⟩ := exists_of_closePair? h
  rw [Selection.range_caret]
  exact ⟨_, rfl, .complete (.closer hcloser)⟩

theorem reads_align? {opener : Char} (h : ctx.align? p opener c = some o) : ctx.Reads p c o := by
  unfold align? at h
  split at h
  · rename_i found _
    simp only at h
    split at h
    · cases h
    · obtain rfl := Option.some.inj h
      exact ⟨_, rfl, .align found.start.line⟩
  · cases h

theorem reads_electric? (h : ctx.electric? (.caret p) c = some o) : ctx.Reads p c o := by
  unfold electric? at h
  split at h
  · split at h
    · rename_i append alignWith? haction
      obtain rfl := Option.some.inj h
      rw [complete, Selection.range_caret]
      exact ⟨_, rfl, .complete (.append haction rfl)⟩
    · exact reads_align? h
    · cases h
  · cases h

theorem typeBreak?_eq_none {s : Selection} (hc : isLineBreak c = false) :
    ctx.typeBreak? s c = none := by
  refine if_neg ?_
  rintro rfl
  revert hc
  decide

/-- A character that ends no line, typed at a caret, always has a reading. -/
theorem reads_type (hc : isLineBreak c = false) (p : Position) :
    ctx.Reads p c (ctx.type (.caret p) [c]) := by
  have hplain : ctx.Reads p c (.typePlain (.caret p) [c]) := by
    rw [Outcome.typePlain, Selection.range_caret]
    exact ⟨_, rfl, .plain⟩
  have hwrap : ctx.wrap? (.caret p) c = none := by simp [wrap?, Selection.isEmpty, Selection.caret]
  rw [type]
  rcases hread : ctx.interpret? (.caret p) c with _ | o
  · exact hplain
  · rw [interpret?, typeBreak?_eq_none hc, hwrap] at hread
    simp only [Option.orElse_eq_some, reduceCtorEq, false_or, true_and] at hread
    rcases hread with h | ⟨-, h | ⟨-, h⟩⟩
    · exact reads_overtype? h
    · exact reads_closePair? h
    · exact reads_electric? h

/-! ## The line of the caret -/

/-- A line in two parts, with a typed character between them. The first part keeps its
content. The second stays, or has a completion in front, or loses the character, which
leaves the first as it is. -/
def Inserts (ctx : Context) (p : Position) (c : Char) (lead tail lead' tail' : Text) : Prop :=
  lead'.content = lead.content ∧
    (tail' = tail ∨ (∃ t, ctx.Completes p c t ∧ tail' = t ++ tail) ∨
      lead' = lead ∧ tail = c :: tail')

variable {b : Buffer} {above below : List Line} {lead tail e : Text}

theorem contentBefore_eq (h : ctx.view.lineContent (above.length + 1) = lead ++ tail) :
    ctx.contentBefore ⟨above.length + 1, lead.length + 1⟩ = lead.content := by
  have hfirst : min ((ctx.view.firstContentColumn? (above.length + 1)).getD (lead.length + 1))
      (lead.length + 1) = lead.leadingIndent.length + 1 := by
    rw [View.firstContentColumn?, h, ← min_getD_firstContent? lead tail]
    cases firstContent? (lead ++ tail) with
    | none => simp
    | some i => simp
  have hle : lead.leadingIndent.length ≤ lead.length := length_leadingIndent_le lead
  have hlen : (lead.drop lead.leadingIndent.length).length =
      lead.length - lead.leadingIndent.length := List.length_drop
  simp only [contentBefore, hfirst, h, Nat.add_sub_cancel, slice]
  rw [List.drop_append_of_le_length hle, ← hlen, List.take_left, drop_length_leadingIndent]

/-- The command puts a character into its line between the two parts, and the caret is
after it. -/
def PutsIn (ctx : Context) (c : Char) (b : Buffer) (above : List Line) (lead tail e : Text)
    (below : List Line) (command : Command) : Prop :=
  ∃ lead' tail', ∃ b' : Buffer,
    b.apply command = .ok (b', .caret ⟨above.length + 1, (lead' ++ [c]).length + 1⟩) ∧
      b'.lines = above ++ ⟨lead' ++ [c] ++ tail', e⟩ :: below ∧
        ctx.Inserts ⟨above.length + 1, lead.length + 1⟩ c lead tail lead' tail'

section

variable (hlines : b.lines = above ++ ⟨lead ++ tail, e⟩ :: below) (hc : Unbroken [c])

include hlines hc

theorem putsIn_plain :
    ctx.PutsIn c b above lead tail e below
      (.type (.point ⟨above.length + 1, lead.length + 1⟩) [c]) := by
  have hpoint : b.lines = above ++ ⟨lead ++ [] ++ tail, e⟩ :: below := by rwa [List.append_nil]
  obtain ⟨b', hlines', happly⟩ := Buffer.exists_type_ofPart hpoint hc (List.cons_ne_nil c [])
  rw [Range.ofPart_nil] at happly
  exact ⟨lead, tail, b', happly, hlines', rfl, .inl rfl⟩

theorem putsIn_complete {t : Text} (ht : Unbroken t)
    (hcomplete : ctx.Completes ⟨above.length + 1, lead.length + 1⟩ c t) :
    ctx.PutsIn c b above lead tail e below
      (.typeOffset (.point ⟨above.length + 1, lead.length + 1⟩) (c :: t) 0
        (-(t.length : Int))) := by
  have hpoint : b.lines = above ++ ⟨lead ++ [] ++ tail, e⟩ :: below := by rwa [List.append_nil]
  obtain ⟨b', hlines', happly⟩ :=
    Buffer.exists_typeOffset_ofPart hpoint hc ht (List.cons_ne_nil c [])
  rw [Range.ofPart_nil] at happly
  refine ⟨lead, t ++ tail, b', happly, ?_, rfl, .inr (.inl ⟨t, hcomplete, rfl⟩)⟩
  rw [hlines', ← List.append_assoc, List.append_assoc _ t]

/-- Stepping over a character types it in its own place. In the last column there is, it
goes in as it is. -/
theorem putsIn_stepOver (hafter : (lead ++ tail)[lead.length]? = some c) :
    ctx.PutsIn c b above lead tail e below
      (.type (.ofEnds ⟨above.length + 1, lead.length + 1⟩
        ((⟨above.length + 1, lead.length + 1⟩ : Position).offset 0 1)) [c]) := by
  rw [Position.offset, moveCoordinate_zero (Nat.le_add_left _ _)]
  rcases moveCoordinate_one (Nat.le_add_left 1 lead.length) with hcol | hcol
  · obtain ⟨rest, rfl⟩ : ∃ rest, tail = c :: rest := by
      refine List.head?_eq_some_iff.mp ?_
      rw [List.head?_eq_getElem?, ← hafter, List.getElem?_append_right (Nat.le_refl _),
        Nat.sub_self]
    have hover : b.lines = above ++ ⟨lead ++ [c] ++ rest, e⟩ :: below := by
      rwa [List.append_assoc, List.singleton_append]
    obtain ⟨b', hlines', happly⟩ := Buffer.exists_type_ofPart hover hc (List.cons_ne_nil c [])
    have hstop : (lead ++ [c]).length + 1 = lead.length + 1 + 1 := by simp
    refine ⟨lead, rest, b', ?_, hlines', rfl, .inr (.inr ⟨rfl, rfl⟩)⟩
    rw [hcol, hstop]
    rwa [Range.ofPart, hstop] at happly
  · rw [hcol, Range.ofEnds_self]
    exact putsIn_plain hlines hc

/-- Other indentation in front of what the line has before the caret. -/
theorem putsIn_align {indentation : Text} (hindent : AllIndent indentation) :
    ctx.PutsIn c b above lead tail e below
      (.type (.onLine (above.length + 1) 1 (lead.length + 1))
        (indentation ++ lead.content ++ [c])) := by
  have hlead : Unbroken lead := (Buffer.unbroken_of_lines hlines).1
  have hnew : Unbroken (indentation ++ lead.content ++ [c]) :=
    unbroken_append.mpr ⟨unbroken_append.mpr ⟨hindent.unbroken, hlead.content⟩, hc⟩
  have hcontent : (indentation ++ lead.content).content = lead.content := by
    rw [hindent.content_append, content_content]
  have hstart : b.lines = above ++ ⟨[] ++ lead ++ tail, e⟩ :: below := hlines
  obtain ⟨b', hlines', happly⟩ := Buffer.exists_type_ofPart hstart hnew (List.concat_ne_nil _ _)
  exact ⟨indentation ++ lead.content, tail, b', happly, hlines', hcontent, .inl rfl⟩

end

/-- Every reading puts the character into its line. -/
theorem Reading.putsIn {command : Command}
    (h : ctx.Reading ⟨above.length + 1, lead.length + 1⟩ c command) (hv : ctx.view = b.view)
    (hlines : b.lines = above ++ ⟨lead ++ tail, e⟩ :: below) (hc : Unbroken [c])
    (hu : ∀ t, ctx.Completes ⟨above.length + 1, lead.length + 1⟩ c t → Unbroken t) :
    ctx.PutsIn c b above lead tail e below command := by
  have hline : ctx.view.lineContent (above.length + 1) = lead ++ tail := by
    rw [hv, Buffer.view_lineContent, Buffer.lineContent_of_lines hlines]
  cases h with
  | plain => exact putsIn_plain hlines hc
  | stepOver hafter =>
    rw [charAfter?, hline] at hafter
    exact putsIn_stepOver hlines hc hafter
  | complete ht => exact putsIn_complete hlines hc (hu _ ht) ht
  | align line =>
    rw [contentBefore_eq hline]
    exact putsIn_align hlines hc (ctx.config.style.allIndent_normalize (allIndent_leadingIndent _))

end Context

end Keystroke
