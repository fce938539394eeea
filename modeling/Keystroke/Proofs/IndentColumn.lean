import Keystroke.Proofs.Indentation
import Mathlib.Data.List.Basic

/-!
# Columns of indentation

Spaces and tabs are clusters of their own, so the visible column where the content of a
line starts is read off its indentation : each space takes a cell and each tab goes on to
the next stop (`visibleColumn_leadingIndent`), as far as a word holds that. The one thing to
ask of the content is that its first character does not join a space in front of it
(`Text.StartsCluster`). A shift puts the content at the stop after that column or at the one
before, counted in levels of indentation (`indentCount_leadingIndent`,
`outdentCount_leadingIndent`).
-/

namespace Keystroke

open Unicode Text

/-! ## Clusters -/

namespace Text

/-- The text is empty, or its first character is no part of the cluster of a space in
front of it. -/
def StartsCluster (t : Text) : Prop :=
  ∀ c ∈ t.head?, clusters [' ', c] = [[' '], [c]]

instance : (t : Text) → Decidable t.StartsCluster
  | [] => isTrue fun _ h => nomatch h
  | c :: t => decidable_of_iff (clusters [' ', c] = [[' '], [c]]) (by simp [StartsCluster])

end Text

namespace Cluster

/-- A character starts a cluster behind a space if it does not join one. -/
theorem clusters_space_iff (c : Char) :
    clusters [' ', c] = [[' '], [c]] ↔ Tail.other.joins (BreakClass.ofChar c) = false := by
  have hstart : Tail.start (BreakClass.ofChar ' ') = .other := by
    rw [BreakClass.ofChar_space]
    rfl
  rw [clusters, hstart, readFrom]
  by_cases h : Tail.other.joins (BreakClass.ofChar c) = true <;> simp [h, readFrom]

/-- A character that does not join starts the clusters of the rest. -/
theorem readFrom_of_not_joins {tail : Tail} {t : Text}
    (h : ∀ c ∈ t.head?, tail.joins (BreakClass.ofChar c) = false) :
    readFrom tail t = ([], clusters t) := by
  cases t with
  | nil => rfl
  | cons c t => simp [readFrom, clusters, h c rfl]

/-- Nothing joins a tab. -/
theorem Tail.not_joins_control (b : BreakClass) : Tail.control.joins b = false := by
  cases b <;> rfl

end Cluster

open Cluster

namespace Text

variable {s t : Text} {c : Char}

/-- Spaces and tabs join nothing. -/
theorem startsCluster_cons_indent (hc : isIndent c = true) : StartsCluster (c :: t) := by
  rintro _ ⟨⟩
  rw [clusters_space_iff]
  rcases (isIndent_iff c).mp hc with rfl | rfl
  · rw [BreakClass.ofChar_space]
    rfl
  · rw [BreakClass.ofChar_tab]
    rfl

theorem AllIndent.startsCluster_append (hs : AllIndent s) (ht : StartsCluster t) :
    StartsCluster (s ++ t) := by
  cases s with
  | nil => exact ht
  | cons c s => exact startsCluster_cons_indent (hs c List.mem_cons_self)

/-- A space or tab is cut off in front of such a text. -/
theorem clusters_cons_indent (hc : isIndent c = true) (ht : StartsCluster t) :
    clusters (c :: t) = [c] :: clusters t := by
  have hread : readFrom (Tail.start (BreakClass.ofChar c)) t = ([], clusters t) := by
    refine readFrom_of_not_joins fun d hd => ?_
    rcases (isIndent_iff c).mp hc with rfl | rfl
    · rw [BreakClass.ofChar_space]
      exact (clusters_space_iff d).mp (ht d hd)
    · rw [BreakClass.ofChar_tab]
      exact Tail.not_joins_control _
  rw [clusters, hread]

/-- Spaces and tabs in front of a text are cut one by one. -/
theorem AllIndent.clusters_append (hs : AllIndent s) (ht : StartsCluster t) :
    clusters (s ++ t) = s.map (fun c => [c]) ++ clusters t := by
  induction s with
  | nil => rfl
  | cons c s ih =>
    have hs' : AllIndent s := fun d hd => hs d (List.mem_cons_of_mem _ hd)
    rw [List.cons_append, clusters_cons_indent (hs c List.mem_cons_self)
      (hs'.startsCluster_append ht), ih hs', List.map_cons, List.cons_append]

end Text

/-! ## Cells -/

/-- The cell after a run of spaces and tabs that starts in cell `x`, however far along. -/
def cellAfterIndent (tabSize x : Nat) (t : Text) : Nat :=
  t.foldl (fun x c => x + if c = '\t' then tabWidthAt x tabSize else 1) x

/-- The width of a run of spaces and tabs at the start of a line, each tab reaching to the
next stop. -/
def stopWidth (tabSize : Nat) (t : Text) : Nat :=
  cellAfterIndent tabSize 0 t

section

variable {tabSize : Nat} {s t : Text}

/-- The first space or tab, and the rest from where it ends. -/
theorem cellAfterIndent_cons (x : Nat) (c : Char) (t : Text) :
    cellAfterIndent tabSize x (c :: t) =
      cellAfterIndent tabSize (x + if c = '\t' then tabWidthAt x tabSize else 1) t := rfl

/-- One run after the other. -/
theorem cellAfterIndent_append (x : Nat) (s t : Text) :
    cellAfterIndent tabSize x (s ++ t) =
      cellAfterIndent tabSize (cellAfterIndent tabSize x s) t :=
  List.foldl_append

theorem cellAfterIndent_spaces (x n : Nat) :
    cellAfterIndent tabSize x (List.replicate n ' ') = x + n := by
  induction n generalizing x with
  | zero => rfl
  | succ n ih =>
    rw [List.replicate_succ, cellAfterIndent_cons, if_neg (by decide), ih]
    omega

/-- A run never goes back. -/
theorem le_cellAfterIndent (x : Nat) (t : Text) : x ≤ cellAfterIndent tabSize x t := by
  induction t generalizing x with
  | nil => exact Nat.le_refl x
  | cons c t ih => exact Nat.le_trans (Nat.le_add_right _ _) (ih _)

/-- Spaces and tabs as clusters. -/
theorem cellAfter_indent {c : Char} (hc : isIndent c = true) (x : Nat) :
    cellAfter tabSize x [c] = addWord x (if c = '\t' then tabWidthAt x tabSize else 1) := by
  rcases (isIndent_iff c).mp hc with rfl | rfl
  · rw [cellAfter, if_neg (by decide), if_neg (by decide), cellWidth_of_isAscii (by decide)]
    rfl
  · rfl

/-- As long as a word holds it, the cell after a run of spaces and tabs is the one that is
computed. -/
theorem foldl_cellAfter_indent (hs : AllIndent s) {x : Nat}
    (hle : cellAfterIndent tabSize x s ≤ maxWord) :
    s.foldl (fun x c => cellAfter tabSize x [c]) x = cellAfterIndent tabSize x s := by
  induction s generalizing x with
  | nil => rfl
  | cons c s ih =>
    rw [cellAfterIndent_cons] at hle ⊢
    have hcell := Nat.le_trans (le_cellAfterIndent _ s) hle
    rw [List.foldl_cons, cellAfter_indent (hs c List.mem_cons_self), addWord_of_le hcell,
      ih (fun d hd => hs d (List.mem_cons_of_mem _ hd)) hle]

/-- Whole clusters take their cells one after the other. -/
theorem cellAfterChars_append {gs : List Text} (hgs : ∀ g ∈ gs, g ≠ []) (rest : List Text)
    (x : Nat) :
    cellAfterChars tabSize (gs ++ rest) gs.flatten.length x = gs.foldl (cellAfter tabSize) x := by
  induction gs generalizing x with
  | nil => cases rest <;> rfl
  | cons g gs ih =>
    obtain ⟨hg, hgs⟩ := List.forall_mem_cons.mp hgs
    have hpos := List.length_pos_iff.mpr hg
    rw [List.flatten_cons, List.length_append, List.cons_append, cellAfterChars,
      if_neg (by omega), Nat.add_sub_cancel_left, ih hgs, List.foldl_cons]

/-- Where every character is a cluster, they take their cells one after the other. -/
theorem cellAfterChars_map_singleton (s : Text) (gs : List Text) (x : Nat) :
    cellAfterChars tabSize (s.map (fun c => [c]) ++ gs) s.length x =
      s.foldl (fun x c => cellAfter tabSize x [c]) x := by
  have hflat : (s.map fun c => [c]).flatten = s := by
    rw [← List.flatMap_def, List.flatMap_singleton']
  have hne : ∀ g ∈ s.map fun c => [c], g ≠ [] := by simp
  rw [← List.foldl_map, ← cellAfterChars_append hne gs, hflat]

/-- As many clusters as there are spaces and tabs take the cells of the run. -/
theorem cellAfterChars_indent (hs : AllIndent s) (gs : List Text) {x : Nat}
    (hle : cellAfterIndent tabSize x s ≤ maxWord) :
    cellAfterChars tabSize (s.map (fun c => [c]) ++ gs) s.length x =
      cellAfterIndent tabSize x s := by
  rw [cellAfterChars_map_singleton, foldl_cellAfter_indent hs hle]

/-- The column after spaces and tabs at the start of a line. -/
theorem visibleColumn_indent (hs : AllIndent s) (ht : StartsCluster t)
    (hle : stopWidth tabSize s ≤ maxWord) :
    visibleColumn (s ++ t) (s.length + 1) tabSize = stopWidth tabSize s := by
  rw [visibleColumn, hs.clusters_append ht, Nat.add_sub_cancel, cellAfterChars_indent hs _ hle,
    stopWidth]

/-- The content of a line is in the column its indentation takes it to. -/
theorem visibleColumn_leadingIndent (ht : StartsCluster t.content)
    (hle : stopWidth tabSize t.leadingIndent ≤ maxWord) :
    visibleColumn t (t.leadingIndent.length + 1) tabSize = stopWidth tabSize t.leadingIndent := by
  rw [← visibleColumn_indent (allIndent_leadingIndent t) ht hle, leadingIndent_append_content]

/-! ## Stops -/

/-- The stop after a cell is the next multiple of a tab. -/
theorem add_tabWidthAt (h : 0 < tabSize) (x : Nat) :
    x + tabWidthAt x tabSize = tabSize * (x / tabSize + 1) := by
  have hmod := Nat.div_add_mod x tabSize
  have hlt := Nat.mod_lt x h
  rw [tabWidthAt, Nat.mul_succ]
  omega

/-- The stop after a cell, as far as a word holds it. -/
theorem nextTabStop_eq {x : Nat} (hle : x + tabWidthAt x tabSize ≤ maxWord) :
    nextTabStop x tabSize = x + tabWidthAt x tabSize :=
  addWord_of_le hle

/-- It is one level on. -/
theorem nextTabStop_div (h : 0 < tabSize) {x : Nat} (hle : x + tabWidthAt x tabSize ≤ maxWord) :
    nextTabStop x tabSize / tabSize = x / tabSize + 1 := by
  rw [nextTabStop_eq hle, add_tabWidthAt h, Nat.mul_div_cancel_left _ h]

/-- The stop before a cell, in levels. -/
theorem prevTabStop_div (x : Nat) : prevTabStop x tabSize / tabSize = (x - 1) / tabSize := by
  cases x with
  | zero => rfl
  | succ x => rw [prevTabStop, Nat.add_sub_cancel, ← Nat.div_eq_sub_mod_div]

/-- An indent of a line goes one level past the levels its content is behind. -/
theorem indentCount_leadingIndent (h : 0 < tabSize) (ht : StartsCluster t.content)
    (hle : stopWidth tabSize t.leadingIndent +
      tabWidthAt (stopWidth tabSize t.leadingIndent) tabSize ≤ maxWord) :
    indentCount t (t.leadingIndent.length + 1) tabSize =
      stopWidth tabSize t.leadingIndent / tabSize + 1 := by
  rw [indentCount, visibleColumn_leadingIndent ht (Nat.le_trans (Nat.le_add_right _ _) hle),
    nextTabStop_div h hle]

/-- An outdent goes to the last level in front of the content. -/
theorem outdentCount_leadingIndent (ht : StartsCluster t.content)
    (hle : stopWidth tabSize t.leadingIndent ≤ maxWord) :
    outdentCount t (t.leadingIndent.length + 1) tabSize =
      (stopWidth tabSize t.leadingIndent - 1) / tabSize := by
  rw [outdentCount, visibleColumn_leadingIndent ht hle, prevTabStop_div]

/-- Every space and every tab takes a cell at least. -/
theorem length_le_cellAfterIndent (h : 0 < tabSize) (x : Nat) (t : Text) :
    x + t.length ≤ cellAfterIndent tabSize x t := by
  induction t generalizing x with
  | nil => exact Nat.le_refl x
  | cons c t ih =>
    have hnext : x + 1 ≤ x + if c = '\t' then tabWidthAt x tabSize else 1 := by
      have := tabWidthAt_pos (x := x) h
      split <;> omega
    rw [cellAfterIndent_cons, List.length_cons]
    exact Nat.le_trans (by omega) (ih _)

/-- Only the empty run has no width. -/
theorem stopWidth_eq_zero_iff (h : 0 < tabSize) : stopWidth tabSize t = 0 ↔ t = [] := by
  have hle := length_le_cellAfterIndent h 0 t
  constructor
  · intro hw
    rw [stopWidth] at hw
    exact List.length_eq_zero_iff.mp (by omega)
  · rintro rfl
    rfl

end

/-! ## Levels -/

namespace IndentStyle

variable (s : IndentStyle)

/-- So many levels of indentation. -/
def ofLevels (n : Nat) : Text :=
  (List.replicate n s.oneIndent).flatten

theorem allIndent_oneIndent : AllIndent s.oneIndent := by
  unfold oneIndent
  split
  · exact allIndent_replicate (by decide) s.tabSize
  · exact allIndent_replicate (by decide) 1

theorem allIndent_ofLevels (n : Nat) : AllIndent (s.ofLevels n) := by
  intro c hc
  obtain ⟨t, ht, hc⟩ := List.mem_flatten.mp hc
  exact s.allIndent_oneIndent c (List.eq_of_mem_replicate ht ▸ hc)

theorem ofLevels_succ (n : Nat) : s.ofLevels (n + 1) = s.ofLevels n ++ s.oneIndent := by
  rw [ofLevels, ofLevels, List.replicate_succ', List.flatten_append, List.flatten_singleton]

/-- A level of indentation reaches from one stop to the next. -/
theorem cellAfterIndent_oneIndent (n : Nat) :
    cellAfterIndent s.tabSize (n * s.tabSize) s.oneIndent = (n + 1) * s.tabSize := by
  have hstop : n * s.tabSize + tabWidthAt (n * s.tabSize) s.tabSize = (n + 1) * s.tabSize := by
    rw [tabWidthAt, Nat.mul_mod_left, Nat.sub_zero, Nat.succ_mul]
  unfold oneIndent
  split
  · rw [cellAfterIndent_spaces, Nat.succ_mul]
  · exact hstop

/-- Whole levels end at stops. -/
theorem stopWidth_ofLevels (n : Nat) : stopWidth s.tabSize (s.ofLevels n) = n * s.tabSize := by
  induction n with
  | zero => exact (Nat.zero_mul _).symm
  | succ n ih =>
    rw [stopWidth] at ih ⊢
    rw [ofLevels_succ, cellAfterIndent_append, ih, cellAfterIndent_oneIndent]

end IndentStyle

end Keystroke
