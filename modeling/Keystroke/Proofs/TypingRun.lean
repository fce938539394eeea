import Keystroke.Proofs.Caret
import Keystroke.Proofs.Safety

/-!
# Texts typed one after the other

Typing puts a text in place of the selection and leaves the caret behind it, so the next text
goes in right there (`Session.step_typePlain`, `Session.step_typed`). The caret is predicted
from each text by itself. The predictions add up to the one for all texts together as long as
no text ends in a carriage return, which a line feed at the start of the next would join. So
texts typed one after the other leave the session that typing all of them at once leaves
(`Session.runAll_typeEach`), down to the undo stops, of which typing adds none.
-/

namespace Keystroke

open Text Position

/-- The steps that type texts as they are, in order. -/
def Step.typeEach (ts : List Text) : List Step :=
  ts.map fun t => .edit (.typePlain t)

/-! ## Ends of texts -/

namespace Text

variable {s t : Text} {c : Char}

theorem getLast?_append_ne (hs : s.getLast? ≠ some c) (ht : t.getLast? ≠ some c) :
    (s ++ t).getLast? ≠ some c := by
  rw [List.getLast?_append, Ne, Option.or_eq_some_iff]
  rintro (h | ⟨-, h⟩)
  · exact ht h
  · exact hs h

theorem not_fuses_of_getLast?_ne (hs : s.getLast? ≠ some '\r') (t : Text) : ¬Fuses s t :=
  fun hf => hs hf.1

theorem NoBareReturn.getLast?_ne (h : NoBareReturn s) : s.getLast? ≠ some '\r' :=
  fun hs => h.not_fuses ['\n'] ⟨hs, rfl⟩

end Text

namespace Session

/-- The session with a text typed between two pieces of the buffer, the first of which leads to
`p`, and the caret behind it. -/
def typed (s : Session) (p : Position) (before t after : Text) : Session :=
  { s with
    buffer := { s.buffer with text := before ++ t ++ after, tokens := [] }
    cursor := .caret (p.traverse t) }

variable {s : Session} {p : Position} {before covered after t u : Text}

/-! ## One text -/

/-- A text typed over the selection. -/
theorem step_typePlain (h : s.buffer.Cut s.cursor.range before covered after) (t : Text) :
    (s.step (.edit (.typePlain t))).2.refused? = none ∧
      (s.step (.edit (.typePlain t))).1 = s.typed s.cursor.start before t after := by
  have hcommand : ((EditStep.typePlain t).outcome s.context s.cursor).command? =
      some (.type s.cursor.range t) := rfl
  have hstep : s.step (.edit (.typePlain t)) = _ :=
    run_of_ok hcommand (h.apply_replace t .followText)
  rw [hstep]
  exact ⟨rfl, rfl⟩

section

variable (s : Session) (after : Text) (hp : origin.traverse before = p)
  (hbefore : before.getLast? ≠ some '\r')

include hp hbefore

/-- A text typed behind the one before it. -/
theorem step_typed (hu : u.getLast? ≠ some '\r') (t : Text) :
    ((s.typed p before u after).step (.edit (.typePlain t))).2.refused? = none ∧
      ((s.typed p before u after).step (.edit (.typePlain t))).1 =
        s.typed p before (u ++ t) after := by
  have hreach : origin.traverse (before ++ u) = p.traverse u := by
    rw [traverse_append (not_fuses_of_getLast?_ne hbefore u), hp]
  have hcut : (s.typed p before u after).buffer.Between (p.traverse u) (before ++ u) after :=
    ⟨rfl, not_fuses_of_getLast?_ne (getLast?_append_ne hbefore hu) after, hreach⟩
  have hrange : (s.typed p before u after).cursor.range = .point (p.traverse u) :=
    Selection.range_caret _
  have hstart : (s.typed p before u after).cursor.start = p.traverse u := by
    rw [Selection.start, hrange, Range.point]
  obtain ⟨hunrefused, hstep⟩ := step_typePlain (hrange ▸ hcut.cut) t
  refine ⟨hunrefused, hstep.trans ?_⟩
  rw [hstart]
  simp only [typed, traverse_append (not_fuses_of_getLast?_ne hu t), List.append_assoc]

/-! ## Texts in a run -/

/-- Texts typed behind what is typed so far add up to one text. -/
theorem runAll_typed {ts : List Text} (hu : u.getLast? ≠ some '\r')
    (hts : ∀ t ∈ ts, t.getLast? ≠ some '\r') :
    (s.typed p before u after).Unrefused (Step.typeEach ts) ∧
      (s.typed p before u after).runAll (Step.typeEach ts) =
        s.typed p before (u ++ ts.flatten) after := by
  induction ts generalizing u with
  | nil => exact ⟨trivial, by rw [List.flatten_nil, List.append_nil]; rfl⟩
  | cons t ts ih =>
    obtain ⟨hunrefused, hstep⟩ := s.step_typed after hp hbefore hu t
    have ht : t.getLast? ≠ some '\r' := hts t List.mem_cons_self
    obtain ⟨hrest, hrun⟩ := ih (getLast?_append_ne hu ht) fun t' ht' =>
      hts t' (List.mem_cons_of_mem t ht')
    rw [← hstep] at hrest hrun
    refine ⟨⟨hunrefused, hrest⟩, hrun.trans ?_⟩
    rw [List.flatten_cons, List.append_assoc]

end

/-- Texts that do not end in a carriage return, typed one after the other, leave the session
that typing all of them at once leaves. No step is refused. -/
theorem runAll_typeEach (hs : s.Safe) {ts : List Text} (hne : ts ≠ [])
    (hts : ∀ t ∈ ts, t.getLast? ≠ some '\r') :
    s.Unrefused (Step.typeEach ts) ∧ s.Unrefused [.edit (.typePlain ts.flatten)] ∧
      s.runAll (Step.typeEach ts) = s.runAll [.edit (.typePlain ts.flatten)] := by
  obtain ⟨t, ts, rfl⟩ := List.exists_cons_of_ne_nil hne
  obtain ⟨before, covered, after, hcut⟩ := Buffer.exists_cut hs.covers
  obtain ⟨hbefore, -, -⟩ := hcut.noBareReturn hs.noBareReturn
  obtain ⟨hfirst, hstep⟩ := step_typePlain hcut t
  obtain ⟨hwhole, hall⟩ := step_typePlain hcut (t :: ts).flatten
  obtain ⟨hrest, hrun⟩ := s.runAll_typed after hcut.start hbefore.getLast?_ne
    (hts t List.mem_cons_self) fun t' ht' => hts t' (List.mem_cons_of_mem t ht')
  rw [← Selection.start, ← hstep] at hrest hrun
  exact ⟨⟨hfirst, hrest⟩, ⟨hwhole, trivial⟩, hrun.trans hall.symm⟩

/-- Over a selection that ends at a line break of two characters, with another one typed as one
text and a line feed typed by itself. -/
theorem runAll_typeEach_lineBreaks :
    let s : Session := ⟨.standard, BracketRules.standard.toRules,
      .ofText ['a', 'b', '\r', '\n', 'c'], ⟨⟨2, 1⟩, ⟨1, 2⟩⟩, 0⟩
    let ts : List Text := [['x', '\r', '\n'], [], ['\n'], ['y', '\u2029', 'z']]
    s.Unrefused (Step.typeEach ts) ∧ s.Unrefused [.edit (.typePlain ts.flatten)] ∧
      s.runAll (Step.typeEach ts) = s.runAll [.edit (.typePlain ts.flatten)] := by
  intro s ts
  have hs : s.Safe := ⟨by decide, by decide, by decide⟩
  exact runAll_typeEach hs (by decide) (by decide)

end Session

end Keystroke
