import Keystroke.Proofs.OneLine
import Mathlib.Data.Nat.Find

/-!
# The opener above a position

The search for an opener reads the text before a position backward and keeps count of the
closers that have no opener yet. It stops where openers first outnumber closers
(`unmatchedOpener?_eq_some_iff`), which is the last index from which on they do so up to the
position (`Text.LastUnmatched`). So it finds an opener exactly if there is such an index, and
the range of that opener (`Buffer.openerAbove?_nearest`). In particular it passes over
characters that are neither side of the pair (`Buffer.openerAbove?_of_between`).
-/

namespace Keystroke

open Text Position

/-! ## Counting openers and closers -/

namespace Text

variable {opener closer c : Char} {depth depth' k : Nat} {t : Text}

/-- The openers in the text outnumber the closers by more than a depth. -/
def OpensPast (opener closer : Char) (depth : Nat) (t : Text) : Prop :=
  t.count closer + depth < t.count opener

/-- With its next character, and no sooner, the text opens past a depth. -/
def FirstOpensPast (opener closer : Char) (depth : Nat) (t : Text) (k : Nat) : Prop :=
  OpensPast opener closer depth (t.take (k + 1)) ∧
    ∀ j ≤ k, ¬OpensPast opener closer depth (t.take j)

@[simp] theorem not_opensPast_nil : ¬OpensPast opener closer depth [] := by
  simp [OpensPast]

/-- Behind a closer there is one more opener to come. -/
theorem opensPast_closer :
    OpensPast opener closer depth (closer :: t) ↔ OpensPast opener closer (depth + 1) t := by
  by_cases h : closer = opener
  · subst h
    simp only [OpensPast]
    omega
  · simp only [OpensPast, List.count_cons_self, List.count_cons_of_ne h]
    omega

theorem opensPast_opener (h : opener ≠ closer) :
    OpensPast opener closer (depth + 1) (opener :: t) ↔ OpensPast opener closer depth t := by
  simp only [OpensPast, List.count_cons_self, List.count_cons_of_ne h]
  omega

theorem opensPast_other (ho : c ≠ opener) (hc : c ≠ closer) :
    OpensPast opener closer depth (c :: t) ↔ OpensPast opener closer depth t := by
  simp only [OpensPast, List.count_cons_of_ne ho, List.count_cons_of_ne hc]

/-- A character that moves the depth moves the first place past it along. -/
theorem firstOpensPast_cons (h : ∀ s, OpensPast opener closer depth (c :: s) ↔
    OpensPast opener closer depth' s) :
    FirstOpensPast opener closer depth (c :: t) k ↔
      ∃ i, FirstOpensPast opener closer depth' t i ∧ i + 1 = k := by
  cases k with
  | zero => simp [FirstOpensPast, h]
  | succ k =>
    simp only [FirstOpensPast, List.take_succ_cons, h, Nat.add_right_cancel_iff, exists_eq_right]
    refine and_congr_right fun _ => ⟨fun hj i hi => ?_, fun hi j hj => ?_⟩
    · exact (h _).not.mp (hj (i + 1) (Nat.succ_le_succ hi))
    · cases j with
      | zero => exact not_opensPast_nil
      | succ i => exact (h _).not.mpr (hi i (Nat.le_of_succ_le_succ hj))

theorem firstOpensPast_opener (h : opener ≠ closer) :
    FirstOpensPast opener closer 0 (opener :: t) k ↔ 0 = k := by
  constructor
  · rintro ⟨-, hk⟩
    refine (Nat.eq_zero_of_not_pos fun hpos => hk 1 hpos ?_).symm
    simp [OpensPast, List.count_cons_of_ne h]
  · rintro rfl
    simp [FirstOpensPast, OpensPast, List.count_cons_of_ne h]

end Text

/-- The opener found in a text that is read backwards is where the text first opens past the
depth. -/
theorem unmatchedOpener?_eq_some_iff {opener closer : Char} {depth : Nat} {t : Text} {k : Nat} :
    unmatchedOpener? opener closer depth t = some k ↔ FirstOpensPast opener closer depth t k := by
  induction t generalizing depth k with
  | nil => simp [unmatchedOpener?, FirstOpensPast]
  | cons c t ih =>
    unfold unmatchedOpener?
    split
    · rename_i hcloser
      rw [hcloser, firstOpensPast_cons fun _ => opensPast_closer, Option.map_eq_some_iff]
      simp only [ih]
    · rename_i hcloser
      split
      · rename_i hopener
        subst hopener
        cases depth with
        | zero => rw [firstOpensPast_opener hcloser, Option.some.injEq]
        | succ depth =>
          rw [firstOpensPast_cons fun _ => opensPast_opener hcloser]
          simp only [Option.map_eq_some_iff, ih]
      · rename_i hopener
        rw [firstOpensPast_cons fun _ => opensPast_other hopener hcloser, Option.map_eq_some_iff]
        simp only [ih]

/-! ## The last unmatched opener -/

namespace Text

variable {opener closer : Char} {t : Text} {stop : Nat}

/-- From one index up to another, openers outnumber closers. -/
def OpensFrom (t : Text) (opener closer : Char) (stop i : Nat) : Prop :=
  (t.slice i stop).count closer < (t.slice i stop).count opener

instance (i : Nat) : Decidable (t.OpensFrom opener closer stop i) :=
  inferInstanceAs (Decidable (_ < _))

/-- The last index below another from which on openers outnumber closers. -/
structure LastUnmatched (t : Text) (opener closer : Char) (stop i : Nat) : Prop where
  lt : i < stop
  opens : t.OpensFrom opener closer stop i
  last : ∀ j, i < j → j < stop → ¬t.OpensFrom opener closer stop j

/-- There is a last such index if there is any. -/
theorem exists_lastUnmatched_iff :
    (∃ i, t.LastUnmatched opener closer stop i) ↔ ∃ i < stop, t.OpensFrom opener closer stop i := by
  constructor
  · rintro ⟨i, h⟩
    exact ⟨i, h.lt, h.opens⟩
  · rintro ⟨i, hi, hopens⟩
    have hle : i ≤ stop - 1 := by omega
    have hbelow := Nat.findGreatest_le (P := t.OpensFrom opener closer stop) (stop - 1)
    exact ⟨Nat.findGreatest (t.OpensFrom opener closer stop) (stop - 1), by omega,
      Nat.findGreatest_spec hle hopens, fun j hj hlt => Nat.findGreatest_is_greatest hj (by omega)⟩

/-- What is read first, backwards from an index, is what comes last in front of it. -/
theorem opensPast_take_reverse (h : stop ≤ t.length) (n : Nat) :
    OpensPast opener closer 0 ((t.take stop).reverse.take n) ↔
      t.OpensFrom opener closer stop (stop - n) := by
  rw [List.take_reverse, List.length_take_of_le h, List.drop_take, OpensPast, List.count_reverse,
    List.count_reverse, Nat.add_zero]
  rfl

theorem firstOpensPast_reverse_iff (h : stop ≤ t.length) {k : Nat} :
    FirstOpensPast opener closer 0 (t.take stop).reverse k ↔
      k < stop ∧ t.LastUnmatched opener closer stop (stop - 1 - k) := by
  have hindex : stop - (k + 1) = stop - 1 - k := by omega
  simp only [FirstOpensPast, opensPast_take_reverse h, hindex]
  constructor
  · rintro ⟨hopens, hfirst⟩
    have hk : k < stop := by
      refine Decidable.byContradiction fun hk => hfirst stop (by omega) ?_
      have hstart : stop - 1 - k = stop - stop := by omega
      rwa [hstart] at hopens
    refine ⟨hk, by omega, hopens, fun j hj hlt => ?_⟩
    have hback : stop - (stop - j) = j := by omega
    rw [← hback]
    exact hfirst (stop - j) (by omega)
  · rintro ⟨hk, hlast⟩
    refine ⟨hlast.opens, fun j hj => ?_⟩
    rcases Nat.eq_zero_or_pos j with rfl | hpos
    · simp [OpensFrom, slice]
    · exact hlast.last (stop - j) (by omega) (by omega)

end Text

/-- The range of one column at a position. -/
theorem Range.ofEnds_offset {p : Position} (h : 1 ≤ p.line) (hc : 1 ≤ p.column) :
    (ofEnds p (p.offset 0 1)).start = p ∧ (ofEnds p (p.offset 0 1)).stop = p.offset 0 1 := by
  have hle : p ≤ p.offset 0 1 := by
    have hmove := moveCoordinate_one hc
    have hcolumn : p.column ≤ moveCoordinate p.column 1 := by omega
    rw [Position.offset, moveCoordinate_zero h]
    exact .inr ⟨rfl, hcolumn⟩
  rw [ofEnds_of_le hle]
  exact ⟨rfl, rfl⟩

/-- No index has a position above the first line or in front of the first column, and no
column is further along than the index. -/
theorem positionIn_bounds (line : Nat) (ls : List Line) (i : Nat) :
    line ≤ (positionIn line ls i).line ∧ 1 ≤ (positionIn line ls i).column ∧
      (positionIn line ls i).column ≤ i + 1 := by
  fun_induction positionIn line ls i with
  | case1 => simp
  | case2 => simp
  | case3 => simp
  | case4 line l ls i _ _ ih => omega

namespace Buffer

variable {b : Buffer} {bracket opener closer : Char} {p q : Position} {stop i : Nat}
  {before passed after : Text}

theorem positionAt_bounds (b : Buffer) (i : Nat) :
    1 ≤ (b.positionAt i).line ∧ 1 ≤ (b.positionAt i).column ∧
      (b.positionAt i).column ≤ min i b.text.length + 1 :=
  positionIn_bounds 1 b.lines _

/-- The range of one column at the position of an index. -/
theorem ofEnds_positionAt_offset_eq_iff {found : Range} :
    .ofEnds (b.positionAt i) ((b.positionAt i).offset 0 1) = found ↔
      found.start = b.positionAt i ∧ found.stop = found.start.offset 0 1 := by
  obtain ⟨hline, hcolumn, -⟩ := b.positionAt_bounds i
  obtain ⟨hstart, hstop⟩ := Range.ofEnds_offset hline hcolumn
  constructor
  · rintro rfl
    exact ⟨hstart, by rw [hstop, hstart]⟩
  · rintro ⟨hs, ht⟩
    rw [← hs, ← ht, Range.ofEnds_of_le found.start_le_stop]

theorem openerBelow?_eq_some_iff (h : stop ≤ b.text.length) :
    b.openerBelow? opener closer stop = some i ↔ b.text.LastUnmatched opener closer stop i := by
  simp only [openerBelow?, Option.map_eq_some_iff, unmatchedOpener?_eq_some_iff,
    firstOpensPast_reverse_iff h]
  constructor
  · rintro ⟨k, ⟨-, hlast⟩, rfl⟩
    exact hlast
  · intro hlast
    have hlt := hlast.lt
    have hindex : stop - 1 - (stop - 1 - i) = i := by omega
    exact ⟨stop - 1 - i, ⟨by omega, by rwa [hindex]⟩, hindex⟩

/-- The opener above a position is the last unmatched one in front of it. -/
theorem openerAbove?_eq_some_iff {found : Range} :
    b.openerAbove? bracket p = some found ↔
      ∃ opener closer stop i, b.pairOf? bracket = some (opener, closer) ∧
        b.charIndex? p = .ok stop ∧ b.text.LastUnmatched opener closer stop i ∧
          .ofEnds (b.positionAt i) ((b.positionAt i).offset 0 1) = found := by
  unfold openerAbove?
  cases hpair : b.pairOf? bracket with
  | none => simp
  | some pair =>
    cases hp : b.charIndex? p with
    | error e => simp [Except.toOption]
    | ok stop =>
      have hle := charIndex?_le_length hp
      simp only [Except.toOption, Option.bind_eq_bind, Option.bind_some, Option.pure_def,
        Option.bind_eq_some_iff, openerBelow?_eq_some_iff hle, Option.some.injEq,
        Except.ok.injEq]
      constructor
      · rintro ⟨i, hlast, hfound⟩
        exact ⟨_, _, _, i, rfl, rfl, hlast, hfound⟩
      · rintro ⟨_, _, _, i, rfl, rfl, hlast, hfound⟩
        exact ⟨i, hlast, hfound⟩

/-- There is none exactly if no pair is registered for the bracket, the position is outside
the buffer, or openers outnumber closers from no index on. -/
theorem openerAbove?_eq_none_iff :
    b.openerAbove? bracket p = none ↔
      b.pairOf? bracket = none ∨ ¬b.Valid p ∨
        ∃ opener closer stop, b.pairOf? bracket = some (opener, closer) ∧
          b.charIndex? p = .ok stop ∧ ∀ i < stop, ¬b.text.OpensFrom opener closer stop i := by
  constructor
  · intro hnone
    cases hpair : b.pairOf? bracket with
    | none => exact .inl rfl
    | some pair =>
      by_cases hp : b.Valid p
      · obtain ⟨stop, hstop⟩ := exists_charIndex?_iff.mpr hp
        refine .inr (.inr ⟨_, _, stop, rfl, hstop, fun i hi hopens => ?_⟩)
        obtain ⟨i, hlast⟩ := exists_lastUnmatched_iff.mpr ⟨i, hi, hopens⟩
        have hfound := openerAbove?_eq_some_iff.mpr ⟨_, _, _, i, hpair, hstop, hlast, rfl⟩
        rw [hnone] at hfound
        cases hfound
      · exact .inr (.inl hp)
  · intro h
    refine Option.eq_none_iff_forall_ne_some.mpr fun found hfound => ?_
    obtain ⟨_, _, _, i, hpair, hstop, hlast, -⟩ := openerAbove?_eq_some_iff.mp hfound
    rcases h with hnone | hp | ⟨_, _, _, hpair', hstop', hall⟩
    · rw [hpair] at hnone
      cases hnone
    · exact hp (exists_charIndex?_iff.mp ⟨_, hstop⟩)
    · rw [hpair] at hpair'
      rw [hstop] at hstop'
      cases hpair'
      cases hstop'
      exact hall i hlast.lt hlast.opens

theorem Between.charIndex? (h : b.Between p before after) :
    b.charIndex? p = .ok before.length :=
  h.cut.charIndex?_start

theorem Between.positionAt (h : b.Between p before after) : b.positionAt before.length = p :=
  positionAt_of_charIndex? h.charIndex?

/-- An opener with neither side of its pair between it and a position is the opener above
that position. -/
theorem openerAbove?_of_between (hpair : b.pairOf? bracket = some (opener, closer))
    (hne : opener ≠ closer) (hpassed : ∀ c ∈ passed, c ≠ opener ∧ c ≠ closer)
    (hq : b.Between q before (opener :: passed ++ after))
    (hp : b.Between p (before ++ opener :: passed) after) :
    b.openerAbove? bracket p = some (.ofEnds q (q.offset 0 1)) := by
  have hslice (j : Nat) : b.text.slice j (before ++ opener :: passed).length =
      (before ++ opener :: passed).drop j := by
    rw [Text.slice, ← List.drop_take, hp.text, List.take_left]
  have hcount (u : Text) (hu : ∀ c ∈ u, c ∈ passed) : u.count opener = 0 ∧ u.count closer = 0 :=
    ⟨List.count_eq_zero.mpr fun hc => (hpassed _ (hu _ hc)).1 rfl,
      List.count_eq_zero.mpr fun hc => (hpassed _ (hu _ hc)).2 rfl⟩
  obtain ⟨hopeners, hclosers⟩ := hcount passed fun _ => id
  refine openerAbove?_eq_some_iff.mpr ⟨opener, closer, _, before.length, hpair, hp.charIndex?,
    ⟨by simp, ?_, fun j hj _ => ?_⟩, by rw [hq.positionAt]⟩
  · rw [OpensFrom, hslice, List.drop_left, List.count_cons_self, List.count_cons_of_ne hne,
      hopeners, hclosers]
    omega
  · obtain ⟨k, rfl⟩ := Nat.exists_eq_add_of_lt hj
    have hdrop : (before ++ opener :: passed).drop (before.length + k + 1) = passed.drop k := by
      rw [Nat.add_assoc, List.drop_length_add_append, List.drop_succ_cons]
    obtain ⟨hopeners, hclosers⟩ := hcount (passed.drop k) fun _ => List.mem_of_mem_drop
    rw [OpensFrom, hslice, hdrop, hopeners, hclosers]
    exact Nat.lt_irrefl 0

/-- An opener on the line above, with neither side of its pair behind it there or in front
of a position. -/
theorem openerAbove?_of_lines {above below : List Line} {lead rest tail br e : Text}
    (hpair : b.pairOf? bracket = some (opener, closer)) (hne : opener ≠ closer)
    (hlines : b.lines =
      (above ++ [⟨lead ++ opener :: passed, br⟩]) ++ ⟨rest ++ tail, e⟩ :: below)
    (hpassed : ∀ c ∈ passed ++ (br ++ rest), c ≠ opener ∧ c ≠ closer) :
    ∃ found, b.openerAbove? bracket
        ⟨(above ++ [Line.mk (lead ++ opener :: passed) br]).length + 1, rest.length + 1⟩ =
          some found ∧
      found.start = ⟨above.length + 1, lead.length + 1⟩ := by
  have hp := between_of_lines hlines
  have hupper : b.lines =
      above ++ ⟨lead ++ opener :: passed, br⟩ :: ⟨rest ++ tail, e⟩ :: below := by
    simpa using hlines
  have hq := between_of_lines hupper
  have hbefore : ((above ++ [Line.mk (lead ++ opener :: passed) br]) ++
      [Line.mk rest []]).flatMap Line.toText =
        (above ++ [Line.mk lead []]).flatMap Line.toText ++
          opener :: (passed ++ (br ++ rest)) := by
    simp [Line.toText]
  have hafter : (⟨opener :: passed, br⟩ :: ⟨rest ++ tail, e⟩ :: below).flatMap Line.toText =
      opener :: (passed ++ (br ++ rest)) ++ (⟨tail, e⟩ :: below).flatMap Line.toText := by
    simp [Line.toText]
  rw [hbefore] at hp
  rw [hafter] at hq
  exact ⟨_, openerAbove?_of_between hpair hne hpassed hq hp,
    (Range.ofEnds_offset hq.valid.1 hq.valid.2.2.1).1⟩

/-- The opener found above a position is the last one from which on openers outnumber closers
up to the position, and its range is one column; a column is a 64-bit number, and that of no
text in memory is the largest. There is none exactly if no pair is registered for the bracket,
the position is outside the buffer, or openers outnumber closers from no index on, which they
never do if the two sides of the pair are one character. -/
theorem openerAbove?_nearest (b : Buffer) (bracket : Char) (p : Position) :
    (∀ found, b.openerAbove? bracket p = some found ↔
      ∃ opener closer stop i, b.pairOf? bracket = some (opener, closer) ∧
        b.charIndex? p = .ok stop ∧ b.text.LastUnmatched opener closer stop i ∧
          found.start = b.positionAt i ∧ found.stop = found.start.offset 0 1) ∧
    (∀ found, b.openerAbove? bracket p = some found → b.text.length < maxCoordinate →
      found.stop = ⟨found.start.line, found.start.column + 1⟩) ∧
    (b.openerAbove? bracket p = none ↔
      b.pairOf? bracket = none ∨ ¬b.Valid p ∨
        ∃ opener closer stop, b.pairOf? bracket = some (opener, closer) ∧
          b.charIndex? p = .ok stop ∧ ∀ i < stop, ¬b.text.OpensFrom opener closer stop i) ∧
    ∀ side, b.pairOf? bracket = some (side, side) → b.openerAbove? bracket p = none := by
  have hsome (found : Range) : b.openerAbove? bracket p = some found ↔
      ∃ opener closer stop i, b.pairOf? bracket = some (opener, closer) ∧
        b.charIndex? p = .ok stop ∧ b.text.LastUnmatched opener closer stop i ∧
          found.start = b.positionAt i ∧ found.stop = found.start.offset 0 1 := by
    simp only [openerAbove?_eq_some_iff, ofEnds_positionAt_offset_eq_iff]
  refine ⟨hsome, fun found hfound hroom => ?_, openerAbove?_eq_none_iff, ?_⟩
  · obtain ⟨_, _, stop, i, -, hstop, hlast, hstart, hnext⟩ := (hsome found).mp hfound
    obtain ⟨hline, -, hcolumn⟩ := b.positionAt_bounds i
    have hlt := hlast.lt
    have hle := charIndex?_le_length hstop
    rw [hnext, hstart]
    exact offset_next hline (by omega)
  · intro side hpair
    refine openerAbove?_eq_none_iff.mpr ?_
    by_cases hp : b.Valid p
    · obtain ⟨stop, hstop⟩ := exists_charIndex?_iff.mpr hp
      exact .inr (.inr ⟨side, side, stop, hpair, hstop, fun i _ => Nat.lt_irrefl _⟩)
    · exact .inr (.inl hp)

/-- A pair that is closed in between is passed over. -/
example : (ofText ['{', 'a', '\n', '{', '}', ')']).openerAbove? '}' ⟨2, 4⟩ =
    some (.onLine 1 1 2) := by
  decide

end Buffer

end Keystroke
