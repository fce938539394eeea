import Keystroke.Proofs.IndentColumn
import Keystroke.Proofs.TabRun
import Mathlib.Order.Bounds.Basic

/-!
# Where a jump lands

A jump puts white space in the place of the selection, up to the next tab stop. How much is
computed from the column the selection starts in, on the line as it was, and the caret is
shown in a column of the line as it is then. If every character of the two lines is a cluster
of its own, what is in front of the selection takes the same cells on both, and the caret is
at the first stop after the start of the selection (`Context.tab_reaches_stop`). A selection
that starts inside a flag is taken to start where the flag ends, and without its second half
the flag is narrower, so a jump from there falls short.
-/

namespace Keystroke

open Text Unicode

/-! ## Stops -/

/-- A tab reaches to the least multiple of the tab size after the cell it starts in. -/
theorem isLeast_add_tabWidthAt {tabSize : Nat} (h : 0 < tabSize) (x : Nat) :
    IsLeast {m | tabSize ∣ m ∧ x < m} (x + tabWidthAt x tabSize) := by
  rw [add_tabWidthAt h]
  refine ⟨⟨Nat.dvd_mul_right _ _, Nat.lt_mul_div_succ x h⟩, ?_⟩
  rintro _ ⟨⟨k, rfl⟩, hk⟩
  exact Nat.mul_le_mul_left _ (Nat.div_lt_of_lt_mul hk)

/-! ## Clusters of one character -/

namespace Text

/-- Every character is a cluster of its own. -/
def AllSingle (t : Text) : Prop :=
  clusters t = t.map fun c => [c]

instance (t : Text) : Decidable t.AllSingle :=
  inferInstanceAs (Decidable (clusters t = t.map fun c => [c]))

end Text

section

variable {tabSize : Nat} {s t : Text}

theorem visibleColumn_of_allSingle (h : AllSingle (s ++ t)) :
    visibleColumn (s ++ t) (s.length + 1) tabSize =
      s.foldl (fun x c => cellAfter tabSize x [c]) 0 := by
  rw [visibleColumn, h, List.map_append, Nat.add_sub_cancel, cellAfterChars_map_singleton]

/-- Spaces and tabs put into a line start in the column shown for their place before. -/
theorem visibleColumn_insert_indent {w rest : Text} (hw : AllIndent w)
    (hold : AllSingle (s ++ rest)) (hnew : AllSingle (s ++ w ++ t))
    (hle : cellAfterIndent tabSize (visibleColumn (s ++ rest) (s.length + 1) tabSize) w ≤
      maxWord) :
    visibleColumn (s ++ w ++ t) ((s ++ w).length + 1) tabSize =
      cellAfterIndent tabSize (visibleColumn (s ++ rest) (s.length + 1) tabSize) w := by
  rw [visibleColumn_of_allSingle hold] at hle ⊢
  rw [visibleColumn_of_allSingle hnew, List.foldl_append, foldl_cellAfter_indent hw hle]

/-- Half a flag takes one cell of the two. -/
example : visibleColumn ['🇩', '🇪'] 2 4 = 2 ∧ visibleColumn ['🇩', ' ', ' '] 4 4 = 3 := by
  decide +kernel

end

/-! ## Replacing a part of a line -/

namespace Buffer

variable {b b' : Buffer} {r : Range} {t : Text} {p : Position}

/-- The part of a line in the range gives way to the text, the caret is behind that, and the
rest of the line and the other lines stay. -/
def ReplacesPart (b : Buffer) (r : Range) (t : Text) (b' : Buffer) (caret : Position) : Prop :=
  ∃ above lead covered tail e below,
    b.lines = above ++ ⟨lead ++ covered ++ tail, e⟩ :: below ∧
      r = .ofPart above lead covered ∧
        b'.lines = above ++ ⟨lead ++ t ++ tail, e⟩ :: below ∧
          caret = ⟨above.length + 1, (lead ++ t).length + 1⟩

theorem Covers.exists_replacesPart (h : b.Covers r) (hsingle : r.isSingleLine = true)
    (ht : Unbroken t) (hne : t ≠ []) :
    ∃ b' caret, b.apply (.type r t) = .ok (b', .caret caret) ∧ b.ReplacesPart r t b' caret := by
  obtain ⟨above, lead, covered, tail, e, below, hlines, rfl⟩ := h.exists_ofPart hsingle
  obtain ⟨b', hlines', happly⟩ := exists_type_ofPart hlines ht hne
  exact ⟨b', _, happly, above, lead, covered, tail, e, below, hlines, rfl, hlines', rfl⟩

/-- The column shown for a caret behind white space is found from the column shown for the
place the white space was put in. -/
theorem ReplacesPart.visibleColumn {w : Text} {tabSize : Nat} (h : b.ReplacesPart r w b' p)
    (hw : AllIndent w) (hold : AllSingle (b.lineContent r.start.line))
    (hnew : AllSingle (b'.lineContent p.line))
    (hle : cellAfterIndent tabSize
      (Keystroke.visibleColumn (b.lineContent r.start.line) r.start.column tabSize) w ≤
        maxWord) :
    Keystroke.visibleColumn (b'.lineContent p.line) p.column tabSize =
      cellAfterIndent tabSize
        (Keystroke.visibleColumn (b.lineContent r.start.line) r.start.column tabSize) w := by
  obtain ⟨above, lead, covered, tail, e, below, hlines, rfl, hlines', rfl⟩ := h
  rw [Range.start_ofPart] at hold hle ⊢
  rw [lineContent_of_lines hlines, List.append_assoc] at hold hle ⊢
  rw [lineContent_of_lines hlines'] at hnew ⊢
  exact visibleColumn_insert_indent hw hold hnew hle

end Buffer

/-! ## The jump -/

namespace Context

variable {ctx : Context} {s : Selection} {b : Buffer}

/-- Tab jumps at a caret whose line it does not re-indent, and over a selection of more or
less than whole lines. -/
theorem tab_eq_jump_iff : ctx.tab s = ctx.jump s ↔
    if s.isEmpty then ctx.reindent? s.start.line = none else ctx.isPartial s.range = true := by
  cases hempty : s.isEmpty with
  | true =>
    cases h : ctx.reindent? s.start.line with
    | none => simp [tab, hempty, h]
    | some good => simp [tab, hempty, h, jump, Outcome.withAutoWhitespace, Outcome.ofCommand]
  | false =>
    cases h : ctx.isPartial s.range with
    | true => simp [tab, hempty, h]
    | false =>
      simp [tab, hempty, h, jump, indent, shift, Outcome.withBoundaries,
        Outcome.withBoundaryBefore, Outcome.withBoundaryAfter, Outcome.ofCommand]

/-- A jump stays on a line. -/
theorem isSingleLine_of_tab_eq_jump (h : ctx.tab s = ctx.jump s) :
    s.range.isSingleLine = true := by
  rw [tab_eq_jump_iff] at h
  split at h
  · rename_i hempty
    rw [Selection.isSingleLine_range]
    exact Selection.isSingleLine_of_isEmpty hempty
  · rw [isPartial, Bool.and_eq_true] at h
    exact h.1

/-- The white space of a jump takes the cells up to the next stop, in either style. -/
theorem cellAfterIndent_jumpText (p : Position) :
    let x := visibleColumn (ctx.view.lineContent p.line) p.column ctx.config.tabSize
    cellAfterIndent ctx.config.tabSize x (ctx.jumpText p) =
      x + tabWidthAt x ctx.config.tabSize := by
  intro x
  unfold jumpText
  split
  · exact cellAfterIndent_spaces _ _
  · rfl

end Context

end Keystroke
