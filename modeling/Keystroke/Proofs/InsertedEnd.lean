import Keystroke.Proofs.Coordinates

/-!
# Where an inserted text ends

The end of an insertion is predicted from the inserted text alone, with
`Position.traverse` from the position it starts at. The prediction is right exactly when
no line break of the new text lies across an edge of the insertion
(`Buffer.charIndex?_insertedEnd_iff`).
-/

namespace Keystroke

open Text Position

namespace Buffer

/-- A buffer with text put in between two pieces, the first of which leads to `p`. The
prediction from `p` is the index after the text when neither edge fuses. -/
theorem charIndex?_traverse_iff {b : Buffer} {s t d : Text} (hb : b.text = s ++ t ++ d) :
    b.charIndex? ((origin.traverse s).traverse t) = .ok (s.length + t.length) ↔
      ¬Fuses s (t ++ d) ∧ ¬Fuses (s ++ t) d := by
  constructor
  · intro h
    obtain ⟨s', d', hb', hlen, hf, hs'⟩ := charIndex?_eq_ok_iff.mp h
    obtain ⟨rfl, rfl⟩ := List.append_inj (hb.symm.trans hb') (by simp [hlen])
    refine ⟨fun hst => ?_, hf⟩
    rcases fuses_append_cases hst with hst | ⟨rfl, hsd⟩
    · have := line_traverse_of_fuses hst origin
      rw [hs'] at this
      omega
    · exact hf (by simpa using hsd)
  · rintro ⟨hst, hf⟩
    have hst : ¬Fuses s t := fun h => hst (h.append_right d)
    rw [charIndex?_eq_ok_iff]
    exact ⟨s ++ t, d, hb, by simp, hf, traverse_append hst origin⟩

/-- The caret predicted after an insertion, with the text up to any index replaced, is
where the inserted text ends exactly when neither edge of it is inside a line break. -/
theorem charIndex?_insertedEnd_iff (b : Buffer) (e : TextEdit) {first : Nat} (last : Nat)
    (hfirst : b.charIndex? e.range.start = .ok first) :
    let t' := b.text.take first ++ e.text ++ b.text.drop last
    ({ b with text := t' } : Buffer).charIndex? e.insertedEnd = .ok (first + e.text.length) ↔
      ¬InBreak t' first ∧ ¬InBreak t' (first + e.text.length) := by
  obtain ⟨s, u, hsu, rfl, -, hs⟩ := charIndex?_eq_ok_iff.mp hfirst
  have htake : b.text.take s.length = s := by simp [hsu]
  simp only [htake, TextEdit.insertedEnd, ← hs]
  rw [charIndex?_traverse_iff rfl, ← List.length_append, inBreak_append_iff, List.append_assoc,
    inBreak_append_iff]

/-- A line feed put in after a carriage return joins it, and the caret is elsewhere. -/
theorem charIndex?_insertedEnd_lineFeed :
    (Buffer.ofText ['a', '\r', 'b']).charIndex? ⟨2, 1⟩ = .ok 2 ∧
      (Buffer.ofText ['a', '\r', '\n', 'b']).charIndex? ((⟨2, 1⟩ : Position).traverse ['\n']) ≠
        .ok 3 := by
  refine ⟨rfl, fun h => ?_⟩
  have hiff := charIndex?_insertedEnd_iff (.ofText ['a', '\r', 'b'])
    ⟨.point ⟨2, 1⟩, ['\n']⟩ 2 rfl
  exact (hiff.mp h).1 (by decide)

end Buffer

end Keystroke
