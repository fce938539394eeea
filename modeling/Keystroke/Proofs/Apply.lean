import Keystroke.Proofs.Coordinates
import Keystroke.Proofs.Shift
import Keystroke.Session
import Mathlib.Data.List.Forall2

/-!
# Commands as simultaneous replacements

The edits of a command are given in the coordinates of the old text and made one by one,
the last one first. When their spans are in order (`Splice.Ordered`) that is the same as
making them all at once (`Splice.applyAll_eq_simultaneous`) : no span moves before its
turn comes (`Splice.take_applyAll`). The commands that operations make have their edits
in order (`Command.Made.inOrder`), so applying one replaces all its spans or,
when some end is outside the buffer, none (`Buffer.apply_atomic`).
-/

namespace Keystroke

/-! ## Splices at once -/

namespace Splice

/-- The text from an index on with all spans replaced at once. What is between the spans
stays. -/
def simultaneous (t : Text) : Nat → List Splice → Text
  | i, [] => t.drop i
  | i, s :: ss => t.slice i s.first ++ s.text ++ simultaneous t s.last ss

/-- Spans in order between two indices, none of them reversed and no two overlapping. -/
def Ordered (n : Nat) : Nat → List Splice → Prop
  | i, [] => i ≤ n
  | i, s :: ss => i ≤ s.first ∧ s.first ≤ s.last ∧ Ordered n s.last ss

theorem Ordered.le {n : Nat} : ∀ {i : Nat} {ss : List Splice}, Ordered n i ss → i ≤ n
  | _, [], h => h
  | _, s :: _, ⟨h₁, h₂, h₃⟩ => by
    have := h₃.le
    omega

/-- The first replacement is made last. -/
theorem applyAll_cons (s : Splice) (ss : List Splice) (t : Text) :
    applyAll (s :: ss) t = s.apply (applyAll ss t) := rfl

/-- A slice goes on where the text in front of it ends. -/
theorem take_append_slice (t : Text) {i j : Nat} (h : i ≤ j) :
    t.take i ++ t.slice i j = t.take j := by
  rw [Text.slice, ← List.take_append_drop i (t.take j), List.take_take, Nat.min_eq_left h,
    List.drop_take]

/-- Replacements made from the last to the first are made at once. -/
theorem applyAll_eq_take_append {t : Text} :
    ∀ {i : Nat} {ss : List Splice}, Ordered t.length i ss →
      applyAll ss t = t.take i ++ simultaneous t i ss
  | i, [], _ => by simp [applyAll, simultaneous]
  | i, s :: ss, ⟨h₁, h₂, h₃⟩ => by
    have hlast := h₃.le
    have hlen : (t.take s.last).length = s.last := by simp [hlast]
    rw [applyAll_cons, apply, applyAll_eq_take_append h₃, List.drop_left' hlen,
      List.take_append_of_le_length (by omega), List.take_take, Nat.min_eq_left h₂, simultaneous,
      ← take_append_slice t h₁]
    simp only [List.append_assoc]

/-- From the last to the first, ordered replacements are made as if at once. -/
theorem applyAll_eq_simultaneous {t : Text} {ss : List Splice} (h : Ordered t.length 0 ss) :
    applyAll ss t = simultaneous t 0 ss := by
  simpa using applyAll_eq_take_append h

/-- The replacements made so far leave the text in front of them as it was. -/
theorem take_applyAll {t : Text} {i : Nat} {ss : List Splice} (h : Ordered t.length i ss) :
    (applyAll ss t).take i = t.take i := by
  have hlen : (t.take i).length = i := by simp [h.le]
  rw [applyAll_eq_take_append h, List.take_left' hlen]

/-- Every span is there when its turn comes, and none is reversed. -/
theorem Ordered.span_le {t : Text} :
    ∀ {i : Nat} {ss : List Splice}, Ordered t.length i ss →
      ∀ {pre s post}, ss = pre ++ s :: post →
        s.first ≤ s.last ∧ s.last ≤ (applyAll post t).length
  | _, [], _, pre, _, _, h => by cases pre <;> simp at h
  | _, s :: ss, ⟨_, h₂, h₃⟩, [], s', post, h => by
    obtain ⟨rfl, rfl⟩ := List.cons.inj h
    have hlen := congrArg List.length (take_applyAll h₃)
    have := h₃.le
    simp only [List.length_take] at hlen
    omega
  | _, s :: ss, ⟨_, _, h₃⟩, p :: pre, s', post, h =>
    h₃.span_le (List.cons.inj h).2

end Splice

/-! ## Locating edits -/

namespace TextEdit

/-- The ends of edits, in the order they are located. -/
def ends (es : List TextEdit) : List Position :=
  es.flatMap fun e => [e.range.start, e.range.stop]

@[simp] theorem ends_nil : ends [] = [] := rfl

@[simp] theorem ends_cons (e : TextEdit) (es : List TextEdit) :
    ends (e :: es) = e.range.start :: e.range.stop :: ends es := rfl

/-- Edits in document order, no two of them overlapping. -/
def InOrder (es : List TextEdit) : Prop :=
  es.Pairwise fun e f => e.range.stop ≤ f.range.start

end TextEdit

namespace Buffer

variable {b : Buffer}

/-- The splice puts the text of the edit in place of what its range covers. -/
def Locates (b : Buffer) (e : TextEdit) (s : Splice) : Prop :=
  b.charIndex? e.range.start = .ok s.first ∧ b.charIndex? e.range.stop = .ok s.last ∧
    s.text = e.text

/-- An edit is located if both of its ends are. -/
theorem splice?_eq_ok_iff {e : TextEdit} {s : Splice} : b.splice? e = .ok s ↔ b.Locates e s := by
  obtain ⟨i, j, t⟩ := s
  unfold splice? Locates
  rcases b.charIndex? e.range.start with err | first
  · simp [Bind.bind, Except.bind]
  rcases b.charIndex? e.range.stop with err | last
  · simp [Bind.bind, Except.bind]
  simp [Bind.bind, Except.bind, pure, Except.pure, eq_comm]

/-- Edits are located one after the other. -/
theorem splices?_cons {e : TextEdit} {es : List TextEdit} {s : Splice} (h : b.splice? e = .ok s) :
    b.splices? (e :: es) = (b.splices? es).map (s :: ·) := by
  rw [splices?, h]
  rcases b.splices? es with err | ss <;> rfl

/-- All edits are located, or none. -/
theorem splices?_eq_ok_iff {es : List TextEdit} {ss : List Splice} :
    b.splices? es = .ok ss ↔ List.Forall₂ b.Locates es ss := by
  induction es generalizing ss with
  | nil => simp [splices?, eq_comm]
  | cons e es ih =>
    rcases hs : b.splice? e with err | s
    · have hn : ∀ s, ¬b.Locates e s := fun s h => by
        rw [← splice?_eq_ok_iff, hs] at h
        cases h
      have herr : b.splices? (e :: es) = .error err := by
        rw [splices?, hs]
        rfl
      simp [herr, List.forall₂_cons_left_iff, hn]
    · have hl : ∀ s', b.Locates e s' ↔ s = s' := fun s' => by
        rw [← splice?_eq_ok_iff, hs, Except.ok.injEq]
      rw [splices?_cons hs, List.forall₂_cons_left_iff]
      rcases h : b.splices? es with err | ss'
      · simp [Except.map, ← ih, h]
      · simp [Except.map, ← ih, h, hl, eq_comm]

/-- Ends inside the buffer are located. -/
theorem splices?_of_valid {es : List TextEdit} (h : ∀ p ∈ TextEdit.ends es, b.Valid p) :
    ∃ ss, b.splices? es = .ok ss := by
  induction es with
  | nil => exact ⟨[], rfl⟩
  | cons e es ih =>
    obtain ⟨ss, hss⟩ := ih fun p hp => h p (by simp [hp])
    obtain ⟨i, hi⟩ := exists_charIndex?_iff.mpr (h e.range.start (by simp))
    obtain ⟨j, hj⟩ := exists_charIndex?_iff.mpr (h e.range.stop (by simp))
    have hs : b.splice? e = .ok ⟨i, j, e.text⟩ := splice?_eq_ok_iff.mpr ⟨hi, hj, rfl⟩
    exact ⟨_, by rw [splices?_cons hs, hss, Except.map]⟩

/-- The first end outside the buffer is the one complained about. -/
theorem splices?_of_find? {es : List TextEdit} {p : Position}
    (h : (TextEdit.ends es).find? (fun p => ¬b.Valid p) = some p) :
    b.splices? es = .error (.outOfBounds p) := by
  induction es with
  | nil => simp at h
  | cons e es ih =>
    rw [TextEdit.ends_cons, List.find?_cons] at h
    by_cases hv : b.Valid e.range.start
    · obtain ⟨i, hi⟩ := exists_charIndex?_iff.mpr hv
      rw [decide_eq_false (not_not_intro hv), List.find?_cons] at h
      by_cases hv' : b.Valid e.range.stop
      · obtain ⟨j, hj⟩ := exists_charIndex?_iff.mpr hv'
        rw [decide_eq_false (not_not_intro hv')] at h
        have hs : b.splice? e = .ok ⟨i, j, e.text⟩ := splice?_eq_ok_iff.mpr ⟨hi, hj, rfl⟩
        rw [splices?_cons hs, ih h, Except.map]
      · rw [decide_eq_true hv'] at h
        obtain rfl := Option.some.inj h
        rw [splices?, splice?, hi, charIndex?_of_not_valid hv']
        rfl
    · rw [decide_eq_true hv] at h
      obtain rfl := Option.some.inj h
      rw [splices?, splice?, charIndex?_of_not_valid hv]
      rfl

/-- An index is at the end of the text at most. -/
theorem charIndex?_le_length {p : Position} {i : Nat} (h : b.charIndex? p = .ok i) :
    i ≤ b.text.length := by
  obtain ⟨s, u, hsu, rfl, -, -⟩ := charIndex?_eq_ok_iff.mp h
  simp [hsu]

/-- Edits in order are made by splices in order. -/
theorem ordered_of_locates {es : List TextEdit} {ss : List Splice}
    (h : List.Forall₂ b.Locates es ss) (ho : TextEdit.InOrder es) {i : Nat}
    (hi : i ≤ b.text.length)
    (hlow : ∀ e ∈ es, ∀ j, b.charIndex? e.range.start = .ok j → i ≤ j) :
    Splice.Ordered b.text.length i ss := by
  induction h generalizing i with
  | nil => exact hi
  | @cons e s es ss hs _ ih =>
    obtain ⟨hfirst, hlast, -⟩ := hs
    obtain ⟨he, ho⟩ := List.pairwise_cons.mp ho
    refine ⟨hlow e (by simp) _ hfirst, charIndex?_le hfirst hlast e.range.start_le_stop, ?_⟩
    exact ih ho (charIndex?_le_length hlast) fun f hf j hj => charIndex?_le hlast hj (he f hf)

end Buffer

/-! ## Commands -/

namespace Command

/-- Commands as operations make them : a shift is the shift of some selection. -/
inductive Made (v : View) : Command → Prop
  | replace (e : TextEdit) (p : Placement) : Made v (.replace e p)
  | surround (s : Selection) (opener closer : Char) : Made v (.surround s opener closer)
  | shift (s : Selection) (o : ShiftOptions) : Made v (.shift (.ofSelection v s o))

/-- Operations make commands with their edits in order. -/
theorem Made.inOrder {v : View} {c : Command} (h : c.Made v) : TextEdit.InOrder c.edits := by
  cases h with
  | replace e p => exact List.pairwise_singleton _ _
  | surround s opener closer => exact List.pairwise_pair.mpr s.range.start_le_stop
  | shift s o => exact Shift.pairwise_edits.imp fun h => .inl h

end Command

namespace Session

/-- A refused command leaves buffer and cursor as they were. -/
theorem run_of_error {s : Session} {o : Outcome} {c : Command} {err : BufferError}
    (hc : o.command? = some c) (h : s.buffer.apply c = .error err) :
    s.run o = ({ s with undoStops := s.undoStops + stopsOf o },
      { outcome? := some o, refused? := some err }) := by
  simp only [run, hc, h]

/-- A session goes on with what the command leaves. -/
theorem run_of_ok {s : Session} {o : Outcome} {c : Command} {b : Buffer} {cursor : Selection}
    (hc : o.command? = some c) (h : s.buffer.apply c = .ok (b, cursor)) :
    s.run o = ({ s with undoStops := s.undoStops + stopsOf o, buffer := b, cursor },
      { outcome? := some o }) := by
  simp only [run, hc, h]

end Session

namespace Buffer

variable {b : Buffer}

/-- A command whose edits are located applies. -/
theorem apply_of_locates {c : Command} {ss : List Splice}
    (h : List.Forall₂ b.Locates c.edits ss) :
    b.apply c =
      .ok ({ b with text := Splice.applyAll ss b.text, tokens := [] }, c.cursorAfter) := by
  rw [apply, splices?_eq_ok_iff.mpr h]
  rfl

/-- A command is applied at once or not at all. Its edits are in order. If every end of
them is inside the buffer, all their spans are replaced simultaneously, none of them
reversed or past the end when it is removed, and the tokens are dropped; otherwise the
first end that is outside is refused and the session keeps its buffer and cursor. -/
theorem apply_atomic (b : Buffer) {c : Command} (hc : c.Made b.view) :
    TextEdit.InOrder c.edits ∧
      ((∀ p ∈ TextEdit.ends c.edits, b.Valid p) →
        ∃ ss, List.Forall₂ b.Locates c.edits ss ∧
          (∀ pre s post, ss = pre ++ s :: post →
            s.first ≤ s.last ∧ s.last ≤ (Splice.applyAll post b.text).length) ∧
          b.apply c = .ok ({ b with text := Splice.simultaneous b.text 0 ss, tokens := [] },
            c.cursorAfter)) ∧
      ∀ p, (TextEdit.ends c.edits).find? (fun p => ¬b.Valid p) = some p →
        b.apply c = .error (.outOfBounds p) ∧
          ∀ (s : Session) (o : Outcome), s.buffer = b → o.command? = some c →
            (s.run o).1.buffer = b ∧ (s.run o).1.cursor = s.cursor ∧
              (s.run o).2.refused? = some (.outOfBounds p) := by
  refine ⟨hc.inOrder, fun hv => ?_, fun p hp => ?_⟩
  · obtain ⟨ss, hss⟩ := splices?_of_valid hv
    have hl := splices?_eq_ok_iff.mp hss
    have ho := ordered_of_locates hl hc.inOrder (Nat.zero_le _) fun _ _ j _ => Nat.zero_le j
    refine ⟨ss, hl, fun _ _ _ => ho.span_le, ?_⟩
    rw [apply_of_locates hl, Splice.applyAll_eq_simultaneous ho]
  · have herr : b.apply c = .error (.outOfBounds p) := by
      rw [apply, splices?_of_find? hp]
      rfl
    refine ⟨herr, ?_⟩
    rintro s o rfl ho
    rw [Session.run_of_error ho herr]
    exact ⟨rfl, rfl, rfl⟩

/-- A wrap is made at both ends or at neither. -/
theorem apply_atomic_surround :
    let b := Buffer.ofText ['a']
    (∃ ss, List.Forall₂ b.Locates [⟨.point ⟨1, 1⟩, ['(']⟩, ⟨.point ⟨1, 2⟩, [')']⟩] ss ∧
      b.apply (.surround ⟨⟨1, 1⟩, ⟨1, 2⟩⟩ '(' ')') =
        .ok ({ b with text := Splice.simultaneous b.text 0 ss, tokens := [] },
          ⟨⟨1, 2⟩, ⟨1, 3⟩⟩)) ∧
      b.apply (.surround ⟨⟨1, 1⟩, ⟨2, 1⟩⟩ '(' ')') = .error (.outOfBounds ⟨2, 1⟩) := by
  refine ⟨?_, ?_⟩
  · obtain ⟨ss, hss, -, h⟩ := (apply_atomic (.ofText ['a'])
      (.surround ⟨⟨1, 1⟩, ⟨1, 2⟩⟩ '(' ')')).2.1 (by decide)
    exact ⟨ss, hss, h⟩
  · exact ((apply_atomic (.ofText ['a']) (.surround ⟨⟨1, 1⟩, ⟨2, 1⟩⟩ '(' ')')).2.2
      ⟨2, 1⟩ (by decide)).1

end Buffer

end Keystroke
