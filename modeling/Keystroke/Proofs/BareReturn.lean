import Keystroke.Proofs.Coordinates
import Mathlib.Data.List.Forall2

/-!
# Texts without a bare carriage return

A carriage return is bare when no line feed comes right after it. A text without one can
be cut at every place that does not fuse into texts without one (`noBareReturn_append_iff`),
and it never fuses with what comes after it, so every such text leads from the start of a
buffer to a position inside it (`Buffer.valid_traverse`) and the contents of its lines
can change under their terminators (`IsLines.withContents`).
-/

namespace Keystroke

namespace Text

/-- Every carriage return has a line feed right after it. -/
def NoBareReturn : Text → Prop
  | [] => True
  | c :: t => (c = '\r' → t.head? = some '\n') ∧ NoBareReturn t

instance decidableNoBareReturn : (t : Text) → Decidable t.NoBareReturn
  | [] => inferInstanceAs (Decidable True)
  | c :: t =>
    have := decidableNoBareReturn t
    inferInstanceAs (Decidable ((c = '\r' → t.head? = some '\n') ∧ NoBareReturn t))

/-- Every carriage return has a line feed behind it. -/
theorem noBareReturn_iff {t : Text} :
    NoBareReturn t ↔ ∀ i : Nat, t[i]? = some '\r' → t[i + 1]? = some '\n' := by
  induction t with
  | nil => simp [NoBareReturn]
  | cons c t ih =>
    rw [NoBareReturn, ih, List.head?_eq_getElem?]
    constructor
    · rintro ⟨h, ht⟩ (_ | i) hi
      · exact h (by simpa using hi)
      · exact ht i (by simpa using hi)
    · intro h
      exact ⟨fun hc => by simpa using h 0 (by simp [hc]), fun i hi => by
        simpa using h (i + 1) (by simpa using hi)⟩

/-- An unbroken text has no carriage return at all. -/
theorem Unbroken.noBareReturn {t : Text} (h : Unbroken t) : NoBareReturn t := by
  induction t with
  | nil => trivial
  | cons c t ih =>
    obtain ⟨hc, ht⟩ := unbroken_cons.mp h
    exact ⟨fun hr => absurd hr (ne_return hc), ih ht⟩

/-- A text without a bare carriage return does not end in a carriage return. -/
theorem NoBareReturn.not_fuses {s : Text} (h : NoBareReturn s) (t : Text) : ¬Fuses s t := by
  rintro ⟨hs, -⟩
  obtain ⟨r, rfl⟩ := List.getLast?_eq_some_iff.mp hs
  have := noBareReturn_iff.mp h r.length (by simp)
  simp at this

/-- Whether returns are bare is decided part by part, where no break is cut. -/
theorem noBareReturn_append_iff {s t : Text} (hf : ¬Fuses s t) :
    NoBareReturn (s ++ t) ↔ NoBareReturn s ∧ NoBareReturn t := by
  induction s with
  | nil => simp [NoBareReturn]
  | cons c s ih =>
    have ih := ih fun h => hf (h.cons c)
    rw [List.cons_append, NoBareReturn, NoBareReturn, ih, ← and_assoc]
    refine and_congr_left fun _ => and_congr_left fun _ => ?_
    cases s with
    | cons d s => rfl
    | nil =>
      refine forall_congr' fun hc => ?_
      simp only [List.nil_append, List.head?_nil, reduceCtorEq, iff_false]
      exact fun ht => hf ⟨by rw [hc]; rfl, ht⟩

/-- No carriage return is bare for want of a part in front. -/
theorem NoBareReturn.append {s t : Text} (hs : NoBareReturn s) (ht : NoBareReturn t) :
    NoBareReturn (s ++ t) :=
  (noBareReturn_append_iff (hs.not_fuses t)).mpr ⟨hs, ht⟩

/-- A new line of unbroken text. -/
theorem Unbroken.noBareReturn_lineFeed {t : Text} (h : Unbroken t) :
    NoBareReturn ('\n' :: t) :=
  NoBareReturn.append (s := ['\n']) (by decide) h.noBareReturn

end Text

open Text Position

/-! ## Lines with other contents -/

namespace IsLines

/-- Lines without a bare carriage return keep their terminators when contents without
line breaks are put in place of theirs. -/
theorem withContents {ls ls' : List Line} (h : IsLines ls)
    (hb : NoBareReturn (ls.flatMap Line.toText))
    (hc : List.Forall₂ (fun l l' => Unbroken l'.content ∧ l'.terminator = l.terminator) ls ls') :
    IsLines ls' ∧ NoBareReturn (ls'.flatMap Line.toText) := by
  induction h generalizing ls' with
  | last _ =>
    obtain ⟨l', _, ⟨hu, he⟩, hnil, rfl⟩ := List.forall₂_cons_left_iff.mp hc
    obtain rfl := List.forall₂_nil_left_iff.mp hnil
    obtain ⟨c, e⟩ := l'
    obtain rfl : e = [] := he
    refine ⟨.last hu, ?_⟩
    simpa [Line.toText] using Unbroken.noBareReturn hu
  | @cons t e ls hu he hf h ih =>
    obtain ⟨l', ls', ⟨hu', he'⟩, hrest, rfl⟩ := List.forall₂_cons_left_iff.mp hc
    obtain ⟨c, e'⟩ := l'
    obtain rfl : e' = e := he'
    simp only [List.flatMap_cons, Line.toText, List.append_assoc] at hb ⊢
    obtain ⟨-, hb⟩ := (noBareReturn_append_iff (hu.not_fuses _)).mp hb
    obtain ⟨hbe, hb⟩ := (noBareReturn_append_iff hf).mp hb
    obtain ⟨ih, hb'⟩ := ih hb hrest
    exact ⟨.cons hu' he (hbe.not_fuses _) ih, (Unbroken.noBareReturn hu').append (hbe.append hb')⟩

end IsLines

/-! ## Positions -/

namespace Buffer

variable {b : Buffer}

/-- Reading a piece that does not fuse with the rest leads inside the buffer. -/
theorem valid_traverse_of_not_fuses {s u : Text} (hb : b.text = s ++ u) (hf : ¬Fuses s u) :
    b.Valid (origin.traverse s) :=
  exists_charIndex?_iff.mp ⟨s.length, charIndex?_eq_ok_iff.mpr ⟨s, u, hb, rfl, hf, rfl⟩⟩

/-- A part at the start of a buffer leads to a position inside it. -/
theorem valid_traverse {s u : Text} (hb : b.text = s ++ u) (hs : NoBareReturn s) :
    b.Valid (origin.traverse s) :=
  valid_traverse_of_not_fuses hb (hs.not_fuses u)

end Buffer

end Keystroke
