import Keystroke.Position
import Keystroke.Proofs.Lines

/-!
# Reading a text from a position

`Position.traverse` counts the line breaks of a text and the characters after the last
one. Two texts that do not fuse are read one after the other (`traverse_append`); two
that do make one line break less than their parts (`line_traverse_of_fuses`).
-/

namespace Keystroke

namespace Position

open Text

/-- The position a text starts at. -/
def origin : Position :=
  ⟨1, 1⟩

theorem traverse_cons {c : Char} (hc : isLineBreak c = false) (p : Position) (t : Text) :
    p.traverse (c :: t) = (⟨p.line, p.column + 1⟩ : Position).traverse t := by
  rw [traverse, if_neg (by simp [hc])]
  exact fun _ h _ => ne_return hc h

/-- Characters that end no line move along it. -/
theorem traverse_unbroken_append {s : Text} (hs : Unbroken s) (p : Position) (t : Text) :
    p.traverse (s ++ t) = (⟨p.line, p.column + s.length⟩ : Position).traverse t := by
  induction s generalizing p with
  | nil => rfl
  | cons c s ih =>
    obtain ⟨hc, hs⟩ := unbroken_cons.mp hs
    rw [List.cons_append, traverse_cons hc, ih hs, List.length_cons]
    simp only [Nat.add_assoc, Nat.add_comm 1]

theorem traverse_unbroken {s : Text} (hs : Unbroken s) (p : Position) :
    p.traverse s = ⟨p.line, p.column + s.length⟩ := by
  simpa using traverse_unbroken_append hs p []

/-- A line break leads to the start of the next line. -/
theorem traverse_break_append {e t : Text} (he : IsBreak e) (hf : ¬Fuses e t) (p : Position) :
    p.traverse (e ++ t) = (⟨p.line + 1, 1⟩ : Position).traverse t := by
  rcases he with rfl | ⟨c, hc, rfl⟩
  · rfl
  · rw [List.singleton_append, traverse, if_pos hc]
    rintro u rfl rfl
    exact hf ⟨rfl, rfl⟩

/-- A line feed and a text without line breaks lead that far along the next line. -/
theorem traverse_lineFeed {t : Text} (ht : Unbroken t) (p : Position) :
    p.traverse ('\n' :: t) = ⟨p.line + 1, t.length + 1⟩ := by
  have hnext : p.traverse ('\n' :: t) = (⟨p.line + 1, 1⟩ : Position).traverse t := rfl
  rw [hnext, traverse_unbroken ht, Nat.add_comm 1]

/-- Texts that do not fuse are read one after the other. -/
theorem traverse_append {s t : Text} (h : ¬Fuses s t) (p : Position) :
    p.traverse (s ++ t) = (p.traverse s).traverse t := by
  fun_induction traverse p s with
  | case1 p => rfl
  | case2 p s ih =>
    rw [List.cons_append, List.cons_append, traverse]
    exact ih fun hf => h ((hf.cons _).cons _)
  | case3 p c s hne hc ih =>
    rw [List.cons_append, traverse, if_pos hc]
    · exact ih fun hf => h (hf.cons c)
    · rintro u rfl hu
      cases s with
      | nil => exact h ⟨rfl, by simp at hu; simp [hu]⟩
      | cons d s => exact hne s rfl (by simp at hu; simp [hu])
  | case4 p c s hne hc ih =>
    rw [List.cons_append, traverse_cons (by simpa using hc)]
    exact ih fun hf => h (hf.cons c)

/-! ## Where the reading starts -/

theorem line_le_traverse (p : Position) (t : Text) : p.line ≤ (p.traverse t).line := by
  fun_induction traverse p t with
  | case1 p => exact Nat.le_refl _
  | case2 p t ih => exact Nat.le_of_succ_le ih
  | case3 p c t _ _ ih => exact Nat.le_of_succ_le ih
  | case4 p c t _ _ ih => exact ih

/-- A text that stays on its line leads as much further along it as it starts. -/
theorem traverse_add_column {line column : Nat} {t : Text}
    (h : ((⟨line, column⟩ : Position).traverse t).line = line) (k : Nat) :
    (⟨line, column + k⟩ : Position).traverse t =
      ⟨line, ((⟨line, column⟩ : Position).traverse t).column + k⟩ := by
  rcases unbroken_or_exists_break t with hu | ⟨s, e, u, rfl, hs, he, hf⟩
  · rw [traverse_unbroken hu, traverse_unbroken hu]
    simp only [Nat.add_right_comm]
  · rw [List.append_assoc, traverse_unbroken_append hs, traverse_break_append he hf] at h
    have := line_le_traverse ⟨line + 1, 1⟩ u
    simp only at this h
    omega

/-- A text that leaves its line leads to one place from wherever on the line it starts. -/
theorem traverse_of_line_ne {line column : Nat} {t : Text}
    (h : ((⟨line, column⟩ : Position).traverse t).line ≠ line) (column' : Nat) :
    (⟨line, column'⟩ : Position).traverse t = (⟨line, column⟩ : Position).traverse t := by
  rcases unbroken_or_exists_break t with hu | ⟨s, e, u, rfl, hs, he, hf⟩
  · rw [traverse_unbroken hu] at h
    exact absurd rfl h
  · simp only [List.append_assoc, traverse_unbroken_append hs, traverse_break_append he hf]

/-! ## Lines read -/

/-- A start further down leads further down by as much. -/
theorem line_traverse_add (line column m : Nat) (t : Text) :
    ((⟨line + m, column⟩ : Position).traverse t).line =
      ((⟨line, column⟩ : Position).traverse t).line + m := by
  generalize hp : (⟨line, column⟩ : Position) = p
  fun_induction traverse p t generalizing line column with
  | case1 p => simp [← hp]
  | case2 p t ih =>
    rw [traverse, Nat.add_right_comm, ← ih _ _ rfl, ← hp]
  | case3 p c t hne hc ih =>
    rw [traverse, if_pos hc, Nat.add_right_comm, ← ih _ _ rfl, ← hp]
    exact hne
  | case4 p c t hne hc ih =>
    rw [traverse_cons (by simpa using hc), ← ih _ _ rfl, ← hp]

/-- Texts that fuse make a line break less together than one after the other. -/
theorem line_traverse_of_fuses {s t : Text} (h : Fuses s t) (p : Position) :
    ((p.traverse s).traverse t).line = (p.traverse (s ++ t)).line + 1 := by
  obtain ⟨r, rfl⟩ := List.getLast?_eq_some_iff.mp h.1
  obtain ⟨u, rfl⟩ := List.head?_eq_some_iff.mp h.2
  have hr : ¬Fuses r ['\r'] := by simp [Fuses]
  have hs : (r ++ ['\r']) ++ '\n' :: u = r ++ '\r' :: '\n' :: u := by simp
  have hru : ¬Fuses r ('\r' :: '\n' :: u) := by simp [Fuses]
  rw [hs, traverse_append hr, traverse_append hru]
  generalize p.traverse r = q
  have hcr : q.traverse ['\r'] = ⟨q.line + 1, 1⟩ := rfl
  have hlf : (⟨q.line + 1, 1⟩ : Position).traverse ('\n' :: u) =
      (⟨q.line + 1 + 1, 1⟩ : Position).traverse u := rfl
  have hcrlf : q.traverse ('\r' :: '\n' :: u) = (⟨q.line + 1, 1⟩ : Position).traverse u := rfl
  rw [hcr, hlf, hcrlf, line_traverse_add]

end Position

end Keystroke
