import Keystroke.Proofs.Apply
import Keystroke.Proofs.BareReturn

/-!
# Replacing and wrapping

A range inside a buffer cuts its text in three (`Buffer.exists_cut`). Replacing the range
puts a text in place of the middle piece, and wrapping puts a character on either side of
it. A buffer is safe with a selection when its text has no bare carriage return and both
ends are inside; a command it accepts leaves it so (`Buffer.Accepts`). Reading any part of
the inserted text from the start of the range leads inside the new buffer, and that is all
a placement has to know (`Buffer.accepts_replace`).
-/

namespace Keystroke

open Text

/-! ## Moving a coordinate -/

namespace Position

/-- Coordinates stay counted from one. -/
theorem one_le_moveCoordinate (x : Nat) (d : Int) : 1 ≤ moveCoordinate x d := by
  cases d with
  | ofNat d => exact Nat.le_max_left _ _
  | negSucc d => exact Nat.le_max_left _ _

/-- A coordinate is moved no further than asked. -/
theorem moveCoordinate_le {x y : Nat} {d : Int} (hy : 1 ≤ y) (h : (x : Int) + d ≤ y) :
    moveCoordinate x d ≤ y := by
  cases d with
  | ofNat d =>
    rw [moveCoordinate]
    have : (x : Int) + d ≤ y := h
    omega
  | negSucc d =>
    rw [moveCoordinate]
    omega

theorem moveCoordinate_zero {x : Nat} (h : 1 ≤ x) : moveCoordinate x 0 = x := by
  show max 1 (max x (min (x + 0) maxCoordinate)) = x
  omega

/-- A coordinate moves on by one unless it is the largest. -/
theorem moveCoordinate_one {x : Nat} (h : 1 ≤ x) :
    moveCoordinate x 1 = x + 1 ∨ moveCoordinate x 1 = x := by
  have hmove : moveCoordinate x 1 = max 1 (max x (min (x + 1) maxCoordinate)) := rfl
  omega

/-- There is a next coordinate below the largest. -/
theorem moveCoordinate_one_of_lt {x : Nat} (h : x < maxCoordinate) :
    moveCoordinate x 1 = x + 1 := by
  have hmove : moveCoordinate x 1 = max 1 (max x (min (x + 1) maxCoordinate)) := rfl
  omega

/-- The position after one that is not in the last column there is. -/
theorem offset_next {p : Position} (hline : 1 ≤ p.line)
    (hroom : p.column < maxCoordinate) : p.offset 0 1 = ⟨p.line, p.column + 1⟩ := by
  rw [Position.offset, moveCoordinate_zero hline, moveCoordinate_one_of_lt hroom]

/-- Going back as far as before leads to where it started. -/
theorem moveCoordinate_add_neg {x : Nat} (h : 1 ≤ x) :
    ∀ n : Nat, moveCoordinate (x + n) (-(n : Int)) = x
  | 0 => moveCoordinate_zero h
  | n + 1 => by
    show max 1 (x + (n + 1) - (n + 1)) = x
    omega

end Position

open Position

namespace Buffer

variable {b : Buffer}

/-- An offset that ends on the line of a position inside the buffer, no further along. -/
theorem Valid.offset {p q : Position} {lines columns : Int} (hq : b.Valid q)
    (hl : moveCoordinate p.line lines = q.line) (hc : (p.column : Int) + columns ≤ q.column) :
    b.Valid (p.offset lines columns) := by
  rw [Position.offset, hl]
  exact hq.of_column_le (one_le_moveCoordinate _ _) (moveCoordinate_le hq.2.2.1 hc)

/-- A position moved along a line is inside the buffer up to one that is. -/
theorem Valid.offset_column {p : Position} {column : Nat} {columns : Int}
    (hq : b.Valid ⟨p.line, column⟩) (hc : (p.column : Int) + columns ≤ column) :
    b.Valid (p.offset 0 columns) :=
  hq.offset (moveCoordinate_zero hq.1) hc

/-! ## Selections and ranges inside a buffer -/

/-- Both ends of the range are inside the buffer. -/
def Covers (b : Buffer) (r : Range) : Prop :=
  b.Valid r.start ∧ b.Valid r.stop

/-- The text has no bare carriage return and both ends of the selection are inside. -/
structure Safe (b : Buffer) (s : Selection) : Prop where
  noBareReturn : NoBareReturn b.text
  anchor : b.Valid s.anchor
  head : b.Valid s.head

/-- A range between positions inside the buffer. -/
theorem covers_ofEnds {p q : Position} (hp : b.Valid p) (hq : b.Valid q) :
    b.Covers (.ofEnds p q) := by
  unfold Range.ofEnds
  split
  · exact ⟨hp, hq⟩
  · exact ⟨hq, hp⟩

/-- A range on a line is covered if its last column is there. -/
theorem covers_onLine {line first last : Nat} (h : b.Valid ⟨line, last⟩) (h₁ : 1 ≤ first)
    (h₂ : first ≤ last) : b.Covers (.onLine line first last) :=
  covers_ofEnds (h.of_column_le h₁ h₂) h

theorem covers_point {p : Position} (h : b.Valid p) : b.Covers (.point p) :=
  ⟨h, h⟩

/-- So is the range of a safe selection. -/
theorem Safe.covers {s : Selection} (h : b.Safe s) : b.Covers s.range :=
  covers_ofEnds h.anchor h.head

theorem safe_caret {p : Position} (hb : NoBareReturn b.text) (hp : b.Valid p) :
    b.Safe (.caret p) :=
  ⟨hb, hp, hp⟩

/-- A covered range is safe to select. -/
theorem Covers.safe_ofRange {r : Range} (hb : NoBareReturn b.text) (h : b.Covers r)
    (d : Direction) : b.Safe (.ofRange r d) := by
  cases d with
  | forward => exact ⟨hb, h.1, h.2⟩
  | backward => exact ⟨hb, h.2, h.1⟩

/-! ## Cutting at a range -/

/-- The text in three pieces, cut at the ends of a range. -/
structure Cut (b : Buffer) (r : Range) (before covered after : Text) : Prop where
  text : b.text = before ++ covered ++ after
  start : origin.traverse before = r.start
  stop : origin.traverse (before ++ covered) = r.stop
  not_fuses_start : ¬Fuses before (covered ++ after)
  not_fuses_stop : ¬Fuses (before ++ covered) after

/-- A covered range cuts the text in three. -/
theorem exists_cut {r : Range} (h : b.Covers r) :
    ∃ before covered after, b.Cut r before covered after := by
  obtain ⟨i, hi⟩ := exists_charIndex?_iff.mpr h.1
  obtain ⟨j, hj⟩ := exists_charIndex?_iff.mpr h.2
  have hij := charIndex?_le hi hj r.start_le_stop
  obtain ⟨s, u, hsu, rfl, hf, hs⟩ := charIndex?_eq_ok_iff.mp hi
  obtain ⟨s', u', hsu', rfl, hf', hs'⟩ := charIndex?_eq_ok_iff.mp hj
  obtain ⟨m, rfl⟩ : s <+: s' :=
    List.prefix_of_prefix_length_le (hsu ▸ List.prefix_append s u)
      (hsu' ▸ List.prefix_append s' u') hij
  have hu : u = m ++ u' := by
    rw [hsu, List.append_assoc] at hsu'
    exact List.append_cancel_left hsu'
  exact ⟨s, m, u', hsu', hs, hs', hu ▸ hf, hf'⟩

namespace Cut

variable {r : Range} {before covered after : Text}

/-- It starts where the first part ends. -/
theorem charIndex?_start (h : b.Cut r before covered after) :
    b.charIndex? r.start = .ok before.length :=
  charIndex?_eq_ok_iff.mpr
    ⟨_, _, by rw [h.text, List.append_assoc], rfl, h.not_fuses_start, h.start⟩

/-- It stops where the covered part ends. -/
theorem charIndex?_stop (h : b.Cut r before covered after) :
    b.charIndex? r.stop = .ok (before ++ covered).length :=
  charIndex?_eq_ok_iff.mpr ⟨_, _, h.text, rfl, h.not_fuses_stop, h.stop⟩

/-- No break lies across its start. -/
theorem not_fuses_covered (h : b.Cut r before covered after) : ¬Fuses before covered :=
  fun hf => h.not_fuses_start (hf.append_right after)

/-- The covered text leads from its start to its stop. -/
theorem traverse_covered (h : b.Cut r before covered after) :
    r.start.traverse covered = r.stop := by
  rw [← h.start, ← traverse_append h.not_fuses_covered, h.stop]

/-- Where the covered piece ends when a character is put in front of it. -/
theorem traverse_covered_succ (h : b.Cut r before covered after) :
    (⟨r.start.line, r.start.column + 1⟩ : Position).traverse covered =
      if r.isSingleLine then ⟨r.stop.line, r.stop.column + 1⟩ else r.stop := by
  have hstop : (⟨r.start.line, r.start.column⟩ : Position).traverse covered = r.stop :=
    h.traverse_covered
  unfold Range.isSingleLine
  by_cases hline : r.start.line = r.stop.line
  · rw [traverse_add_column (by rw [hstop, hline]), hstop, if_pos (by simp [hline]), hline]
  · have hne : ((⟨r.start.line, r.start.column⟩ : Position).traverse covered).line ≠
        r.start.line := by
      rw [hstop]
      exact fun h => hline h.symm
    rw [traverse_of_line_ne hne, hstop, if_neg (by simp [hline])]

/-- No piece has a bare carriage return if the text has none. -/
theorem noBareReturn (h : b.Cut r before covered after) (hb : NoBareReturn b.text) :
    NoBareReturn before ∧ NoBareReturn covered ∧ NoBareReturn after := by
  rw [h.text, noBareReturn_append_iff h.not_fuses_stop] at hb
  obtain ⟨hbc, ha⟩ := hb
  rw [noBareReturn_append_iff h.not_fuses_covered] at hbc
  exact ⟨hbc.1, hbc.2, ha⟩

/-- A replacement puts its text in place of the covered piece. -/
theorem apply_replace (h : b.Cut r before covered after) (t : Text) (p : Placement) :
    b.apply (.replace ⟨r, t⟩ p) =
      .ok ({ b with text := before ++ t ++ after, tokens := [] }, p.cursorAfter ⟨r, t⟩) := by
  have hs : b.Locates ⟨r, t⟩ ⟨before.length, (before ++ covered).length, t⟩ :=
    ⟨h.charIndex?_start, h.charIndex?_stop, rfl⟩
  have htake : b.text.take before.length = before := by
    rw [h.text, List.append_assoc]
    exact List.take_left
  have hdrop : b.text.drop (before ++ covered).length = after := by
    rw [h.text]
    exact List.drop_left
  rw [apply_of_locates (c := .replace ⟨r, t⟩ p) (.cons hs .nil)]
  simp only [Splice.applyAll, List.foldr, Splice.apply, htake, hdrop, Command.cursorAfter]

/-- A piece replaced by itself leaves the text as it is. -/
theorem apply_replace_covered (h : b.Cut r before covered after) (p : Placement) :
    b.apply (.replace ⟨r, covered⟩ p) =
      .ok ({ b with tokens := [] }, p.cursorAfter ⟨r, covered⟩) := by
  rw [h.apply_replace, ← h.text]

/-- A wrap puts its characters around the covered piece. -/
theorem apply_surround {s : Selection} (h : b.Cut s.range before covered after)
    (opener closer : Char) :
    b.apply (.surround s opener closer) =
      .ok ({ b with text := before ++ [opener] ++ covered ++ [closer] ++ after, tokens := [] },
        Command.wrappedSelection s) := by
  have hs : b.Locates (.insertAt s.range.start [opener])
      ⟨before.length, before.length, [opener]⟩ :=
    ⟨h.charIndex?_start, h.charIndex?_start, rfl⟩
  have hs' : b.Locates (.insertAt s.range.stop [closer])
      ⟨(before ++ covered).length, (before ++ covered).length, [closer]⟩ :=
    ⟨h.charIndex?_stop, h.charIndex?_stop, rfl⟩
  have htake : b.text.take (before ++ covered).length = before ++ covered := by
    rw [h.text]
    exact List.take_left
  have hdrop : b.text.drop (before ++ covered).length = after := by
    rw [h.text]
    exact List.drop_left
  rw [apply_of_locates (c := .surround s opener closer) (.cons hs (.cons hs' .nil))]
  simp only [Splice.applyAll, List.foldr, Splice.apply, htake, hdrop, Command.cursorAfter]
  simp [List.append_assoc]

end Cut

/-! ## Accepted commands -/

/-- The buffer takes the command and is safe with the selection it leaves. -/
def Accepts (b : Buffer) (c : Command) : Prop :=
  ∃ b' s, b.apply c = .ok (b', s) ∧ b'.Safe s

/-- A replacement is accepted when its placement finds the caret among the places that
reading the inserted text goes through. -/
theorem accepts_replace {r : Range} {t : Text} {p : Placement} (hb : NoBareReturn b.text)
    (hr : b.Covers r) (ht : NoBareReturn t)
    (hp : ∀ b' : Buffer, NoBareReturn b'.text →
      (∀ t₁ t₂, t = t₁ ++ t₂ → NoBareReturn t₁ → b'.Valid (r.start.traverse t₁)) →
      b'.Safe (p.cursorAfter ⟨r, t⟩)) :
    b.Accepts (.replace ⟨r, t⟩ p) := by
  obtain ⟨before, covered, after, h⟩ := exists_cut hr
  obtain ⟨hbefore, -, hafter⟩ := h.noBareReturn hb
  refine ⟨_, _, h.apply_replace t p, hp _ ((hbefore.append ht).append hafter) ?_⟩
  rintro t₁ t₂ rfl ht₁
  rw [← h.start, ← traverse_append (hbefore.not_fuses t₁)]
  exact valid_traverse (u := t₂ ++ after) (by simp) (hbefore.append ht₁)

section

variable {r : Range} {t : Text} (hb : NoBareReturn b.text) (hr : b.Covers r) (ht : NoBareReturn t)

include hb hr ht

theorem accepts_type : b.Accepts (.type r t) :=
  accepts_replace hb hr ht fun _ hb' hv => safe_caret hb' (hv t [] (by simp) ht)

theorem accepts_typeBehind : b.Accepts (.typeBehind r t) :=
  accepts_replace hb hr ht fun _ hb' hv => safe_caret hb' (hv [] t rfl trivial)

/-- A caret in front of the end of the inserted text on its last line. -/
theorem accepts_replace_back (n : Nat) :
    b.Accepts (.replace ⟨r, t⟩ (.offset 0 (-(n : Int)))) :=
  accepts_replace hb hr ht fun _ hb' hv =>
    safe_caret hb' ((hv t [] (by simp) ht).offset_column (by omega))

end

/-- Three lines, with the caret at the end of the middle one. -/
theorem accepts_threeLines {r : Range} {inner outer : Text} (hb : NoBareReturn b.text)
    (hr : b.Covers r) (hi : Unbroken inner) (ho : Unbroken outer) :
    b.Accepts (.typeOffset r ('\n' :: inner ++ '\n' :: outer) (-1)
      ((inner.length : Int) - outer.length)) := by
  have hinner := hi.noBareReturn_lineFeed
  refine accepts_replace hb hr (hinner.append ho.noBareReturn_lineFeed) fun b' hb' hv => ?_
  have hmiddle : r.start.traverse ('\n' :: inner) = ⟨r.start.line + 1, inner.length + 1⟩ :=
    traverse_lineFeed hi _
  have hend : r.start.traverse ('\n' :: inner ++ '\n' :: outer) =
      ⟨r.start.line + 1 + 1, outer.length + 1⟩ := by
    rw [traverse_append (hinner.not_fuses _), hmiddle, traverse_lineFeed ho]
  have hvalid := hv ('\n' :: inner) ('\n' :: outer) rfl hinner
  rw [hmiddle] at hvalid
  refine safe_caret hb' (hvalid.offset ?_ ?_)
  · rw [TextEdit.insertedEnd, hend]
    exact moveCoordinate_add_neg (Nat.le_add_left _ _) 1
  · rw [TextEdit.insertedEnd, hend]
    simp only
    omega

/-- A wrap in two characters that end no line is accepted. -/
theorem accepts_surround {s : Selection} {opener closer : Char} (hs : b.Safe s)
    (ho : isLineBreak opener = false) (hc : isLineBreak closer = false) :
    b.Accepts (.surround s opener closer) := by
  obtain ⟨before, covered, after, h⟩ := exists_cut hs.covers
  obtain ⟨hbefore, hcovered, hafter⟩ := h.noBareReturn hs.noBareReturn
  have hu : Unbroken [opener] := by simpa using ho
  have hu' : Unbroken [closer] := by simpa using hc
  have hopen := hbefore.append hu.noBareReturn
  have hopened := hopen.append hcovered
  refine ⟨_, _, h.apply_surround opener closer, ?_⟩
  generalize hb' : ({ b with
    text := before ++ [opener] ++ covered ++ [closer] ++ after, tokens := [] } : Buffer) = b'
  have htext : b'.text = before ++ [opener] ++ covered ++ [closer] ++ after := by rw [← hb']
  have hsafe : NoBareReturn b'.text := by
    rw [htext]
    exact (hopened.append hu'.noBareReturn).append hafter
  -- the ends of the covered piece in the new text
  have hstart : origin.traverse (before ++ [opener]) =
      ⟨s.range.start.line, s.range.start.column + 1⟩ := by
    rw [traverse_append (hbefore.not_fuses _), h.start, traverse_unbroken hu]
    rfl
  have hvstart := valid_traverse (b := b') (u := covered ++ [closer] ++ after)
    (by rw [htext]; simp) hopen
  have hvstop := valid_traverse (b := b') (u := [closer] ++ after) (by rw [htext]; simp) hopened
  rw [traverse_append (hopen.not_fuses _), hstart, h.traverse_covered_succ] at hvstop
  rw [hstart] at hvstart
  refine (covers_ofEnds (hvstart.offset_column (by simp)) ?_).safe_ofRange hsafe _
  split at hvstop
  · rename_i hline
    rw [if_pos hline]
    exact hvstop.offset_column (by simp)
  · rename_i hline
    rwa [if_neg hline]

end Buffer

end Keystroke
