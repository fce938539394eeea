import Keystroke.Buffer.Brackets
import Keystroke.Proofs.Traverse

/-!
# Positions and indices

A position and the index it addresses are two names of one place. The place is a cut of
the text in two pieces that do not fuse : the index is the length of the first piece and
the position is where reading it leads (`Buffer.charIndex?_eq_ok_iff`). Every index has
such a cut except the ones between the two characters of a line break, so both ways of
going from one name to the other and back are settled (`Buffer.positionAt_of_charIndex?`,
`Buffer.charIndex?_positionAt_iff`).
-/

namespace Keystroke

namespace Text

/-- The index is between the two characters of a line break. -/
def InBreak (t : Text) (i : Nat) : Prop :=
  0 < i ∧ t[i - 1]? = some '\r' ∧ t[i]? = some '\n'

instance (t : Text) (i : Nat) : Decidable (t.InBreak i) :=
  inferInstanceAs (Decidable (_ ∧ _ ∧ _))

/-- The cut at an index fuses when the index is inside a line break. -/
theorem inBreak_append_iff {s t : Text} : InBreak (s ++ t) s.length ↔ Fuses s t := by
  rcases List.eq_nil_or_concat s with rfl | ⟨r, c, rfl⟩
  · simp [InBreak]
  · have hlast : (r ++ [c] ++ t)[(r ++ [c]).length - 1]? = some c := by simp
    have hhead : (r ++ [c] ++ t)[(r ++ [c]).length]? = t.head? := by
      rw [List.getElem?_append_right (Nat.le_refl _), Nat.sub_self, List.head?_eq_getElem?]
    rw [InBreak, List.concat_eq_append, hlast, hhead, Fuses, List.getLast?_concat]
    simp

theorem inBreak_append_add {t : Text} {i : Nat} (h : InBreak t i) (s : Text) :
    InBreak (s ++ t) (s.length + i) := by
  obtain ⟨hi, hr, hn⟩ := h
  refine ⟨by omega, ?_, ?_⟩
  · rw [List.getElem?_append_right (by omega), Nat.add_sub_assoc hi, Nat.add_sub_cancel_left, hr]
  · rw [List.getElem?_append_right (by omega), Nat.add_sub_cancel_left, hn]

end Text

open Text Position

/-! ## Addresses in a cut -/

@[simp] theorem lineStart_zero (ls : List Line) : lineStart ls 0 = 0 := by
  cases ls <;> rfl

namespace IsLines

variable {ls : List Line}

/-- There is always a first line. -/
theorem exists_cons (h : IsLines ls) : ∃ l ms, ls = l :: ms := by
  cases h with
  | last => exact ⟨_, _, rfl⟩
  | cons => exact ⟨_, _, rfl⟩

/-- Lines are cut at every break. -/
theorem unbroken_content (h : IsLines ls) {l : Line} (hl : l ∈ ls) : Unbroken l.content := by
  induction h with
  | last hc =>
    rw [List.mem_singleton.mp hl]
    exact hc
  | cons hc _ _ _ ih =>
    rcases List.mem_cons.mp hl with rfl | hl
    · exact hc
    · exact ih hl

/-- Within a line only the column moves. -/
theorem traverse_take {t : Text} (ht : Unbroken t) {c : Nat} (hc : c ≤ t.length) (line : Nat) :
    (⟨line, 1⟩ : Position).traverse (t.take c) = ⟨line, c + 1⟩ := by
  rw [traverse_unbroken (ht.take c), List.length_take, Nat.min_eq_left hc, Nat.add_comm]

/-- A place on a line cuts the text in two pieces that do not fuse, and reading the first
leads to the place. -/
theorem exists_cut (h : IsLines ls) (line : Nat) :
    ∀ {k c : Nat} (hk : k < ls.length), c ≤ ls[k].content.length →
      ∃ s u, ls.flatMap Line.toText = s ++ u ∧ s.length = lineStart ls k + c ∧ ¬Fuses s u ∧
        (⟨line, 1⟩ : Position).traverse s = ⟨line + k, c + 1⟩ := by
  induction h generalizing line with
  | @last t hu =>
    intro k c hk hc
    obtain rfl : k = 0 := by simpa using hk
    have hc : c ≤ t.length := hc
    refine ⟨t.take c, t.drop c, ?_, ?_, (hu.take c).not_fuses _, traverse_take hu hc line⟩
    · simp [Line.toText]
    · rw [List.length_take, Nat.min_eq_left hc, lineStart_zero, Nat.zero_add]
  | @cons t e ls hu he hf _ ih =>
    intro k c hk hc
    cases k with
    | zero =>
      have hc : c ≤ t.length := hc
      refine ⟨t.take c, t.drop c ++ e ++ ls.flatMap Line.toText, ?_, ?_,
        (hu.take c).not_fuses _, traverse_take hu hc line⟩
      · simp only [List.flatMap_cons, Line.toText, ← List.append_assoc, List.take_append_drop]
      · rw [List.length_take, Nat.min_eq_left hc, lineStart_zero, Nat.zero_add]
    | succ k =>
      obtain ⟨s, u, hsu, hlen, hns, hs⟩ := ih (line + 1) (by simpa using hk) (by simpa using hc)
      have hes : ¬Fuses e s := by
        cases s with
        | nil => simp
        | cons a s =>
          rw [hsu, fuses_append_right (by simp)] at hf
          exact hf
      refine ⟨t ++ e ++ s, u, ?_, ?_, ?_, ?_⟩
      · simp [Line.toText, hsu]
      · simp only [List.length_append, hlen, lineStart, Line.size]
        omega
      · cases s with
        | nil =>
          rw [List.append_nil, fuses_append_left he.ne_nil]
          simpa [hsu] using hf
        | cons a s => rwa [fuses_append_left (by simp)]
      · rw [List.append_assoc, traverse_unbroken_append hu, traverse_break_append he hes, hs]
        simp only [Position.mk.injEq, and_true]
        omega

/-- The last place on a line is before the first one on a later line. -/
theorem lineStart_add_lt (h : IsLines ls) :
    ∀ {j k : Nat} (_ : j < k) (hk : k < ls.length),
      lineStart ls j + ls[j].content.length < lineStart ls k := by
  induction h with
  | last => intro j k hjk hk; simp at hk; omega
  | @cons t e ls hu he hf h ih =>
    intro j k hjk hk
    obtain ⟨k, rfl⟩ : ∃ m, k = m + 1 := ⟨k - 1, by omega⟩
    have hpos := List.length_pos_iff.mpr he.ne_nil
    cases j with
    | zero =>
      simp only [lineStart, Line.size, List.getElem_cons_zero]
      omega
    | succ j =>
      have := ih (j := j) (k := k) (by omega) (by simpa using hk)
      simp only [lineStart, List.getElem_cons_succ]
      omega

/-- An index is at the column found for it, or inside a line break. -/
theorem exists_positionIn (h : IsLines ls) (line : Nat) :
    ∀ {i : Nat}, i ≤ (ls.flatMap Line.toText).length →
      ∃ k c, ∃ hk : k < ls.length, positionIn line ls i = ⟨line + k, c + 1⟩ ∧
        i = lineStart ls k + c ∧
          (c ≤ ls[k].content.length ∨ InBreak (ls.flatMap Line.toText) i) := by
  induction h generalizing line with
  | last hu =>
    intro i hi
    exact ⟨0, i, by simp, rfl, by simp, .inl (by simpa [Line.toText] using hi)⟩
  | @cons t e ls hu he hf h ih =>
    intro i hi
    obtain ⟨m, ms, hls⟩ := h.exists_cons
    have hpos : positionIn line (⟨t, e⟩ :: ls) i =
        if i < t.length + e.length then ⟨line, i + 1⟩
        else positionIn (line + 1) ls (i - (t.length + e.length)) := by
      rw [hls]
      rfl
    simp only [List.flatMap_cons, Line.toText] at hi ⊢
    rw [hpos]
    split
    · rename_i hlt
      refine ⟨0, i, by simp, rfl, by simp, ?_⟩
      rcases Nat.lt_or_ge t.length i with hi' | hi'
      · refine .inr ?_
        rcases he with rfl | ⟨c, -, rfl⟩
        · have hi : i = t.length + 1 := by simp at hlt; omega
          rw [hi, List.append_assoc]
          exact inBreak_append_add ⟨by simp, rfl, rfl⟩ t
        · rw [List.length_singleton] at hlt
          omega
      · exact .inl hi'
    · rename_i hge
      simp only [List.length_append] at hi
      obtain ⟨k, c, hk, hp, hi', hor⟩ := ih (line + 1) (i := i - (t.length + e.length))
        (by omega)
      refine ⟨k + 1, c, by simpa using hk, ?_, ?_, hor.imp id fun hb => ?_⟩
      · rw [hp]
        simp only [Position.mk.injEq, and_true]
        omega
      · simp only [lineStart, Line.size]
        omega
      · have := inBreak_append_add hb (t ++ e)
        rwa [List.length_append, Nat.add_sub_of_le (by omega)] at this

end IsLines

/-- The contents with the terminators in between are the text. -/
theorem IsLines.exists_breaks {ls : List Line} (h : IsLines ls) :
    ∃ breaks, breaks.length + 1 = ls.length ∧ (∀ e ∈ breaks, IsBreak e) ∧
      (List.zipWith (· ++ ·) (ls.map Line.content) (breaks ++ [[]])).flatten =
        ls.flatMap Line.toText := by
  induction h with
  | last => exact ⟨[], rfl, by simp, by simp [Line.toText]⟩
  | @cons t e ls _ he _ _ ih =>
    obtain ⟨breaks, hlen, hb, heq⟩ := ih
    refine ⟨e :: breaks, by simp [hlen], ?_, ?_⟩
    · rintro e' he'
      rcases List.mem_cons.mp he' with rfl | he'
      · exact he
      · exact hb e' he'
    · simp [Line.toText, heq]

/-! ## Addresses in a buffer -/

namespace Buffer

variable {b : Buffer}

theorem isLines : IsLines b.lines :=
  isLines_lines b.text

theorem flatMap_lines : b.lines.flatMap Line.toText = b.text :=
  flatten_lines b.text

/-- Lines are counted from one. -/
theorem lineContent_succ {k : Nat} (hk : k < b.lines.length) :
    b.lineContent (k + 1) = b.lines[k].content := by
  rw [lineContent, contentIn, List.getElem?_eq_getElem hk]
  rfl

/-- All lines, one by one. -/
theorem map_lineContent :
    (List.range' 1 b.lineCount).map b.lineContent = b.lines.map Line.content := by
  refine List.ext_getElem (by simp [lineCount]) fun k hk hk' => ?_
  simp only [List.getElem_map, List.getElem_range', Nat.one_mul, Nat.add_comm 1]
  exact lineContent_succ (by simpa using hk')

/-- No line holds a line break, existing or not. -/
theorem unbroken_lineContent (line : Nat) : Unbroken (b.lineContent line) := by
  rcases Nat.eq_zero_or_pos line with rfl | hpos
  · exact unbroken_nil
  obtain ⟨k, rfl⟩ : ∃ k, line = k + 1 := ⟨line - 1, by omega⟩
  rcases Nat.lt_or_ge k b.lines.length with hk | hk
  · rw [lineContent_succ hk]
    exact isLines.unbroken_content (List.getElem_mem hk)
  · rw [lineContent, contentIn_of_lt (by omega)]
    exact unbroken_nil

/-! ## Positions inside a buffer -/

/-- The places on a line, its end included. -/
theorem valid_succ_iff {k column : Nat} (hk : k < b.lines.length) :
    b.Valid ⟨k + 1, column⟩ ↔ 1 ≤ column ∧ column ≤ b.lines[k].content.length + 1 := by
  have hcount : k + 1 ≤ b.lineCount := hk
  simp only [Valid, lineContent_succ hk, hcount, Nat.le_add_left, true_and]

/-- The line of a position inside the buffer. -/
theorem Valid.exists_line {p : Position} (h : b.Valid p) :
    ∃ k, ∃ _ : k < b.lines.length, p.line = k + 1 := by
  obtain ⟨h₁, h₂, -⟩ := h
  have h₂ : p.line ≤ b.lines.length := h₂
  exact ⟨p.line - 1, by omega, by omega⟩

/-- Columns in front of a position on its line. -/
theorem Valid.of_column_le {line c c' : Nat} (h : b.Valid ⟨line, c⟩) (h₁ : 1 ≤ c')
    (h₂ : c' ≤ c) : b.Valid ⟨line, c'⟩ := by
  obtain ⟨hl, hcount, -, hc⟩ := h
  exact ⟨hl, hcount, h₁, Nat.le_trans h₂ hc⟩

theorem Valid.lineStart {p : Position} (h : b.Valid p) : b.Valid ⟨p.line, 1⟩ :=
  h.of_column_le (Nat.le_refl _) h.2.2.1

/-- Every line has an end. -/
theorem valid_lineEnd {line : Nat} (h₁ : 1 ≤ line) (h₂ : line ≤ b.lineCount) :
    b.Valid (b.view.lineEnd line) :=
  ⟨h₁, h₂, Nat.le_add_left _ _, Nat.le_refl _⟩

/-! ## Positions and their indices -/

/-- A position outside the buffer is named in the error. -/
theorem charIndex?_of_not_valid {p : Position} (h : ¬b.Valid p) :
    b.charIndex? p = .error (.outOfBounds p) :=
  if_neg h

/-- A position has an index when it is inside the buffer. -/
theorem exists_charIndex?_iff {p : Position} : (∃ i, b.charIndex? p = .ok i) ↔ b.Valid p := by
  unfold charIndex?
  split <;> simp_all

/-- The index of a position in terms of its line and column, both counted from zero. -/
theorem charIndex?_eq_ok_iff_exists {p : Position} {i : Nat} :
    b.charIndex? p = .ok i ↔
      ∃ k c, ∃ hk : k < b.lines.length, p = ⟨k + 1, c + 1⟩ ∧
        c ≤ b.lines[k].content.length ∧ i = lineStart b.lines k + c := by
  constructor
  · intro h
    have hv := exists_charIndex?_iff.mp ⟨i, h⟩
    rw [charIndex?, if_pos hv, Except.ok.injEq] at h
    obtain ⟨line, column⟩ := p
    obtain ⟨hl, hk, hc, hcl⟩ : 1 ≤ line ∧ line ≤ b.lines.length ∧ 1 ≤ column ∧
      column ≤ (b.lineContent line).length + 1 := hv
    obtain ⟨k, rfl⟩ : ∃ k, line = k + 1 := ⟨line - 1, by omega⟩
    obtain ⟨c, rfl⟩ : ∃ c, column = c + 1 := ⟨column - 1, by omega⟩
    rw [lineContent_succ hk] at hcl
    exact ⟨k, c, hk, rfl, by omega, h.symm⟩
  · rintro ⟨k, c, hk, rfl, hc, rfl⟩
    have hv : b.Valid ⟨k + 1, c + 1⟩ := by
      refine ⟨by simp, hk, by simp, ?_⟩
      rw [lineContent_succ hk]
      exact Nat.succ_le_succ hc
    rw [charIndex?, if_pos hv]
    rfl

/-- Later positions have later indices. -/
theorem charIndex?_lt {p q : Position} {i j : Nat} (hp : b.charIndex? p = .ok i)
    (hq : b.charIndex? q = .ok j) (h : p < q) : i < j := by
  obtain ⟨k, c, hk, rfl, hc, rfl⟩ := charIndex?_eq_ok_iff_exists.mp hp
  obtain ⟨k', c', hk', rfl, hc', rfl⟩ := charIndex?_eq_ok_iff_exists.mp hq
  rw [Position.lt_def] at h
  rcases h with h | ⟨h, h'⟩
  · have := isLines.lineStart_add_lt (show k < k' by simpa using h) hk'
    omega
  · obtain rfl : k = k' := by simpa using h
    simp only [Nat.add_lt_add_iff_right] at h'
    omega

/-- Indices are in the order of their positions. -/
theorem charIndex?_le {p q : Position} {i j : Nat} (hp : b.charIndex? p = .ok i)
    (hq : b.charIndex? q = .ok j) (h : p ≤ q) : i ≤ j := by
  by_cases hqp : q ≤ p
  · rw [Position.le_antisymm h hqp, hq] at hp
    exact Nat.le_of_eq (Except.ok.inj hp).symm
  · exact Nat.le_of_lt (charIndex?_lt hp hq (Position.not_le.mp hqp))

/-- No two positions have the same index. -/
theorem charIndex?_inj {p q : Position} {i : Nat} (hp : b.charIndex? p = .ok i)
    (hq : b.charIndex? q = .ok i) : p = q := by
  refine Position.le_antisymm ?_ ?_
  · exact Decidable.byContradiction fun h =>
      Nat.lt_irrefl i (charIndex?_lt hq hp (Position.not_le.mp h))
  · exact Decidable.byContradiction fun h =>
      Nat.lt_irrefl i (charIndex?_lt hp hq (Position.not_le.mp h))

/-- An index that a position has is outside all breaks, and what is in front of it leads to the
position. -/
theorem exists_cut_of_charIndex? {p : Position} {i : Nat} (h : b.charIndex? p = .ok i) :
    ∃ s u, b.text = s ++ u ∧ s.length = i ∧ ¬Fuses s u ∧ origin.traverse s = p := by
  obtain ⟨k, c, hk, rfl, hc, rfl⟩ := charIndex?_eq_ok_iff_exists.mp h
  obtain ⟨s, u, hsu, hlen, hf, hs⟩ := isLines.exists_cut 1 hk hc
  refine ⟨s, u, flatMap_lines ▸ hsu, hlen, hf, ?_⟩
  rw [origin, hs, Nat.add_comm]

/-- An index has the position found for it, or is inside a line break. -/
theorem charIndex?_positionAt_or {i : Nat} (hi : i ≤ b.text.length) :
    b.charIndex? (b.positionAt i) = .ok i ∨ InBreak b.text i := by
  have hlen : i ≤ (b.lines.flatMap Line.toText).length := by rwa [flatMap_lines]
  obtain ⟨k, c, hk, hp, hi', hor⟩ := isLines.exists_positionIn 1 hlen
  rw [flatMap_lines] at hor
  refine hor.imp (fun hc => ?_) id
  rw [positionAt, Nat.min_eq_left hi, hp, charIndex?_eq_ok_iff_exists]
  exact ⟨k, c, hk, by rw [Nat.add_comm], hc, hi'⟩

/-- A position has an index exactly where it cuts the text in two pieces that do not fuse :
the index is the length of the first, and reading that leads to the position. -/
theorem charIndex?_eq_ok_iff {p : Position} {i : Nat} :
    b.charIndex? p = .ok i ↔
      ∃ s u, b.text = s ++ u ∧ s.length = i ∧ ¬Fuses s u ∧ origin.traverse s = p := by
  refine ⟨exists_cut_of_charIndex?, ?_⟩
  rintro ⟨s, u, hsu, rfl, hf, rfl⟩
  have hnb : ¬InBreak b.text s.length := by rwa [hsu, inBreak_append_iff]
  have hpos := (charIndex?_positionAt_or (b := b) (by simp [hsu])).resolve_right hnb
  obtain ⟨s', u', hsu', hlen, -, hs'⟩ := exists_cut_of_charIndex? hpos
  obtain rfl : s' = s := (List.append_inj (hsu' ▸ hsu) hlen).1
  rwa [hs']

/-- Only an index inside a break is lost. -/
theorem charIndex?_positionAt_iff {i : Nat} (hi : i ≤ b.text.length) :
    b.charIndex? (b.positionAt i) = .ok i ↔ ¬InBreak b.text i := by
  refine ⟨fun h hb => ?_, fun h => (charIndex?_positionAt_or hi).resolve_right h⟩
  obtain ⟨s, u, hsu, rfl, hf, -⟩ := charIndex?_eq_ok_iff.mp h
  rw [hsu, inBreak_append_iff] at hb
  exact hf hb

/-- The position of an index that a position has is that position. -/
theorem positionAt_of_charIndex? {p : Position} {i : Nat} (h : b.charIndex? p = .ok i) :
    b.positionAt i = p := by
  obtain ⟨s, u, hsu, rfl, hf, -⟩ := charIndex?_eq_ok_iff.mp h
  refine charIndex?_inj ((charIndex?_positionAt_iff (by simp [hsu])).mpr ?_) h
  rwa [hsu, inBreak_append_iff]

/-- Positions and indices are two views of one text. Its lines hold no line breaks and
make the text with their terminators in between; a position is accepted when its line
exists and its column is at most one past the line's end; later positions have later
indices; and each way of going from one view to the other undoes the other, except that
no position leads between the two characters of a line break. -/
theorem positions_and_indices (b : Buffer) :
    (∀ line, 1 ≤ line → line ≤ b.lineCount → Unbroken (b.lineContent line)) ∧
      (∃ breaks, breaks.length + 1 = b.lineCount ∧ (∀ e ∈ breaks, IsBreak e) ∧
        (List.zipWith (· ++ ·) ((List.range' 1 b.lineCount).map b.lineContent)
          (breaks ++ [[]])).flatten = b.text) ∧
      (∀ p, (∃ i, b.charIndex? p = .ok i) ↔
        (1 ≤ p.line ∧ p.line ≤ b.lineCount) ∧
          1 ≤ p.column ∧ p.column ≤ (b.lineContent p.line).length + 1) ∧
      (∀ p q i j, b.charIndex? p = .ok i → b.charIndex? q = .ok j → p < q → i < j) ∧
      (∀ p i, b.charIndex? p = .ok i → b.positionAt i = p) ∧
      ∀ i, i ≤ b.text.length → (b.charIndex? (b.positionAt i) = .ok i ↔ ¬InBreak b.text i) := by
  refine ⟨fun line _ _ => unbroken_lineContent line, ?_, fun p => ?_,
    fun _ _ _ _ => charIndex?_lt, fun _ _ => positionAt_of_charIndex?,
    fun _ => charIndex?_positionAt_iff⟩
  · obtain ⟨breaks, hlen, hb, heq⟩ := (isLines (b := b)).exists_breaks
    refine ⟨breaks, hlen, hb, ?_⟩
    rw [map_lineContent, heq, flatMap_lines]
  · rw [exists_charIndex?_iff, Valid, and_assoc]

end Buffer

end Keystroke
