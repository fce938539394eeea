import Keystroke.Rules.Bracket
import Mathlib.Data.List.Chain
import Mathlib.Order.Bounds.Basic
import Mathlib.Order.Nat

/-!
# Tokens of a line

The tokens of a line fit it when each starts past the one before it and none starts behind the
last character (`LineTokens.Fits`). The check finds the first one that does not fit
(`LineTokens.check_eq_error_iff`). Once it passes, an offset is covered by one token at most,
the one that is looked up (`LineTokens.indexAt?_eq_some_iff`), and the kind of that token is
what may keep a pair from closing itself (`BracketRules.autoCloses_tokens`).
-/

namespace Keystroke

/-! ## The last index -/

section

variable {α : Type} {p : α → Bool} {as : List α}

/-- There is no last index if there is none at all. -/
theorem lastIndex?_eq_none_iff : lastIndex? p as = none ↔ ∀ a ∈ as, p a = false := by
  induction as with
  | nil => simp [lastIndex?]
  | cons a as ih =>
    rw [lastIndex?, List.forall_mem_cons, ← ih]
    cases lastIndex? p as <;> simp

/-- The last index is one with none after it. -/
theorem lastIndex?_eq_some_iff {i : Nat} :
    lastIndex? p as = some i ↔
      (∃ a ∈ as[i]?, p a = true) ∧ ∀ j, i < j → ∀ a ∈ as[j]?, p a = false := by
  induction as generalizing i with
  | nil => simp [lastIndex?]
  | cons a as ih =>
    cases i with
    | zero =>
      have hrest : lastIndex? p as = none ↔ ∀ j, 0 < j → ∀ b ∈ (a :: as)[j]?, p b = false := by
        rw [lastIndex?_eq_none_iff]
        constructor
        · rintro h (_ | j) hj b hb
          · omega
          · exact h b (List.mem_of_getElem? hb)
        · intro h b hb
          obtain ⟨j, hj, rfl⟩ := List.getElem_of_mem hb
          exact h (j + 1) (by omega) _ (List.getElem?_eq_getElem hj)
      rw [← hrest, lastIndex?]
      cases lastIndex? p as <;> simp
    | succ k =>
      have hrest : (∀ j, k < j → ∀ b ∈ as[j]?, p b = false) ↔
          ∀ j, k + 1 < j → ∀ b ∈ (a :: as)[j]?, p b = false := by
        constructor
        · rintro h (_ | j) hj b hb
          · omega
          · exact h j (by omega) b hb
        · intro h j hj b hb
          exact h (j + 1) (by omega) b hb
      rw [← hrest, List.getElem?_cons_succ, ← ih, lastIndex?]
      cases lastIndex? p as <;> simp

end

namespace LineTokens

variable (l : LineTokens)

/-! ## Tokens that fit -/

/-- Each token starts past the one before it, and none starts past the last character unless
at the start of the line. -/
def Fits : Prop :=
  (l.tokens.map Token.start).Pairwise (· < ·) ∧
    ∀ t ∈ l.tokens, 0 < t.start → t.start < l.text.length

/-- The token with this index starts no further along than the one before it, or past the last
character and not at the start of the line. -/
def Misplaced (i : Nat) : Prop :=
  ∃ t ∈ l.tokens[i]?, (0 < i ∧ ∃ previous ∈ l.tokens[i - 1]?, t.start ≤ previous.start) ∨
    (0 < t.start ∧ l.text.length ≤ t.start)

instance : Decidable l.Fits :=
  inferInstanceAs (Decidable (_ ∧ _))

variable {l}

/-- A misplaced token is there. -/
theorem Misplaced.lt {i : Nat} (h : l.Misplaced i) : i < l.tokens.length := by
  obtain ⟨t, ht, -⟩ := h
  exact (List.getElem?_eq_some_iff.mp ht).1

/-- Tokens that fit start one after the other. -/
theorem Fits.start_lt (h : l.Fits) {i j : Nat} {t u : Token} (ht : t ∈ l.tokens[i]?)
    (hu : u ∈ l.tokens[j]?) (hij : i < j) : t.start < u.start := by
  obtain ⟨hi, rfl⟩ := List.getElem?_eq_some_iff.mp ht
  obtain ⟨hj, rfl⟩ := List.getElem?_eq_some_iff.mp hu
  have hlt := List.pairwise_iff_getElem.mp h.1 i j (by simpa using hi) (by simpa using hj) hij
  simpa only [List.getElem_map] using hlt

/-- Tokens fit if none is misplaced. -/
theorem fits_iff : l.Fits ↔ ∀ i, ¬l.Misplaced i := by
  constructor
  · rintro h i ⟨t, ht, ⟨hi, previous, hprevious, hle⟩ | ⟨hpos, hlength⟩⟩
    · have hlt := h.start_lt hprevious ht (by omega)
      omega
    · have hlt := h.2 t (List.mem_of_getElem? ht) hpos
      omega
  · intro h
    refine ⟨List.isChain_iff_pairwise.mp (List.isChain_iff_getElem.mpr fun i hi => ?_),
      fun t ht hpos => ?_⟩
    · have hi : i + 1 < l.tokens.length := by simpa using hi
      simp only [List.getElem_map]
      refine Nat.lt_of_not_le fun hle => h (i + 1) ?_
      exact ⟨_, List.getElem?_eq_getElem hi,
        .inl ⟨by omega, _, List.getElem?_eq_getElem (by omega), hle⟩⟩
    · obtain ⟨i, hi, rfl⟩ := List.getElem_of_mem ht
      refine Nat.lt_of_not_le fun hle => h i ?_
      exact ⟨_, List.getElem?_eq_getElem hi, .inr ⟨hpos, hle⟩⟩

/-! ## The check -/

/-- Whether a token is misplaced depends on the one in front of it and on the line. -/
theorem misplaced_length_iff {front rest : List Token} {t : Token}
    (h : l.tokens = front ++ t :: rest) :
    l.Misplaced front.length ↔
      (∃ previous ∈ front.getLast?, t.start ≤ previous.start) ∨
        (0 < t.start ∧ l.text.length ≤ t.start) := by
  have htoken : l.tokens[front.length]? = some t := by simp [h]
  have hprevious : 0 < front.length → l.tokens[front.length - 1]? = front.getLast? := by
    intro hpos
    rw [h, List.getElem?_append_left (by omega), List.getLast?_eq_getElem?]
  unfold Misplaced
  rw [htoken]
  simp only [Option.mem_some_iff, exists_eq_left']
  refine or_congr_left ⟨fun ⟨hpos, hex⟩ => hprevious hpos ▸ hex, fun hex => ?_⟩
  have hpos : 0 < front.length := by
    obtain ⟨previous, hlast, -⟩ := hex
    exact List.length_pos_of_mem (List.mem_of_getLast? hlast)
  exact ⟨hpos, (hprevious hpos).symm ▸ hex⟩

/-- Of the tokens that are left, the first misplaced one is refused. -/
theorem malformedToken?_eq_some_iff {front rest : List Token} (h : l.tokens = front ++ rest)
    {e : RuleError} :
    malformedToken? l.text.length front.length (front.getLast?.map Token.start) rest = some e ↔
      ∃ i, IsLeast {i | front.length ≤ i ∧ l.Misplaced i} i ∧
        ∃ t ∈ l.tokens[i]?, e = .malformedTokens i t.start := by
  induction rest generalizing front with
  | nil =>
    rw [malformedToken?]
    refine iff_of_false (by simp) ?_
    rintro ⟨i, ⟨⟨hle, hi⟩, -⟩, -⟩
    have hlt := hi.lt
    rw [h, List.append_nil] at hlt
    omega
  | cons t rest ih =>
    have htoken : l.tokens[front.length]? = some t := by simp [h]
    have hif := misplaced_length_iff h
    rw [malformedToken?]
    by_cases hm : l.Misplaced front.length
    · have hleast : IsLeast {i | front.length ≤ i ∧ l.Misplaced i} front.length :=
        ⟨⟨Nat.le_refl _, hm⟩, fun _ hj => hj.1⟩
      rw [if_pos (by simpa [Option.any_eq_true] using hif.mp hm), Option.some.injEq]
      constructor
      · rintro rfl
        exact ⟨_, hleast, t, htoken, rfl⟩
      · rintro ⟨i, hi, u, hu, rfl⟩
        obtain rfl := hi.unique hleast
        rw [htoken] at hu
        cases hu
        rfl
    · have hfront : l.tokens = (front ++ [t]) ++ rest := by simpa using h
      have hnext := ih hfront
      have hset : {i | front.length + 1 ≤ i ∧ l.Misplaced i} =
          {i | front.length ≤ i ∧ l.Misplaced i} := by
        ext i
        refine and_congr_left fun hi => ⟨fun hle => by omega, fun hle => ?_⟩
        exact Nat.lt_of_le_of_ne hle (fun heq => hm (heq ▸ hi))
      rw [List.getLast?_concat, List.length_append, List.length_singleton, hset] at hnext
      rw [if_neg (by simpa [Option.any_eq_true] using fun h => hm (hif.mpr h)), ← hnext]
      rfl

/-- The check names the first misplaced token and where it starts. -/
theorem check_eq_error_iff {e : RuleError} :
    l.check = .error e ↔
      ∃ i, IsLeast {i | l.Misplaced i} i ∧ ∃ t ∈ l.tokens[i]?, e = .malformedTokens i t.start := by
  have hnil : l.tokens = [] ++ l.tokens := rfl
  have hfirst := malformedToken?_eq_some_iff hnil (e := e)
  simp only [List.length_nil, Nat.zero_le, true_and] at hfirst
  rw [← hfirst, check]
  cases hm : malformedToken? l.text.length 0 none l.tokens <;> simp [hm]

/-- It passes if all tokens fit. -/
theorem check_eq_ok_iff : l.check = .ok () ↔ l.Fits := by
  classical
  rw [fits_iff]
  cases hc : l.check with
  | error e =>
    obtain ⟨i, hi, -⟩ := check_eq_error_iff.mp hc
    exact iff_of_false (by simp) fun h => h i hi.1
  | ok =>
    refine iff_of_true rfl fun i hi => ?_
    have hleast := Nat.isLeast_find ⟨i, hi⟩
    obtain ⟨t, ht, -⟩ := hleast.1
    rw [check_eq_error_iff.mpr ⟨_, hleast, t, ht, rfl⟩] at hc
    cases hc

/-! ## The token of an offset -/

/-- The offset is at or behind the start of the token with this index, and in front of the next
one, if there is one. -/
def Covers (l : LineTokens) (i offset : Nat) : Prop :=
  (∃ t ∈ l.tokens[i]?, t.start ≤ offset) ∧ ∀ next ∈ l.tokens[i + 1]?, offset < next.start

/-- The kind of the token that covers an offset; without one it is no special kind. -/
def HasKind (l : LineTokens) (offset : Nat) (k : TokenKind) : Prop :=
  (∃ i, l.Covers i offset ∧ ∃ t ∈ l.tokens[i]?, t.kind = k) ∨
    (∀ i, ¬l.Covers i offset) ∧ k = .other

/-- The token found at an offset is the one that covers it. -/
theorem indexAt?_eq_some_iff (h : l.Fits) {offset i : Nat} :
    l.indexAt? offset = some i ↔ l.Covers i offset := by
  rw [indexAt?, lastIndex?_eq_some_iff, Covers]
  simp only [decide_eq_true_eq, decide_eq_false_iff_not, Nat.not_le]
  refine and_congr_right fun _ => ⟨fun hall => hall (i + 1) (by omega), fun hnext j hj u hu => ?_⟩
  -- the token after the one that covers the offset is the first one past it
  have hlt : i + 1 < l.tokens.length := by
    have := (List.getElem?_eq_some_iff.mp hu).1
    omega
  have hoffset := hnext _ (List.getElem?_eq_getElem hlt)
  rcases Nat.lt_or_eq_of_le hj with hj | rfl
  · have hstart := h.start_lt (List.getElem?_eq_getElem hlt) hu hj
    omega
  · exact hnext u hu

/-- None is found without tokens and in front of the first one. -/
theorem indexAt?_eq_none_iff (h : l.Fits) {offset : Nat} :
    l.indexAt? offset = none ↔ l.tokens = [] ∨ ∃ t ∈ l.tokens.head?, offset < t.start := by
  rw [indexAt?, lastIndex?_eq_none_iff]
  simp only [decide_eq_false_iff_not, Nat.not_le]
  cases htokens : l.tokens with
  | nil => simp
  | cons t rest =>
    have hfits := h.1
    rw [htokens, List.map_cons, List.pairwise_cons, List.forall_mem_map] at hfits
    simp only [List.forall_mem_cons, reduceCtorEq, List.head?_cons, Option.mem_some_iff,
      exists_eq_left', false_or]
    refine ⟨And.left, fun hlt => ⟨hlt, fun u hu => ?_⟩⟩
    have := hfits.1 u hu
    omega

/-- Without a token the kind is that of other text. -/
theorem getD_kindAt?_eq_iff (h : l.Fits) {offset : Nat} {k : TokenKind} :
    (l.kindAt? offset).getD .other = k ↔ l.HasKind offset k := by
  have hcovers (i : Nat) : l.indexAt? offset = some i ↔ l.Covers i offset :=
    indexAt?_eq_some_iff h
  unfold HasKind kindAt?
  simp only [← hcovers]
  cases hi : l.indexAt? offset with
  | none => simp [eq_comm]
  | some i =>
    obtain ⟨t, ht, -⟩ := ((hcovers i).mp hi).1
    have ht : l.tokens[i]? = some t := ht
    simp [ht]

end LineTokens

/-! ## Pairs that are kept out -/

namespace BracketRules

variable (r : BracketRules) {c : Char} {l : LineTokens} {column : Nat}

/-- The rules fail where the check does. -/
theorem autoCloses_eq_error_iff {e : RuleError} :
    r.autoCloses c l column = .error e ↔ l.check = .error e := by
  unfold autoCloses
  cases l.check with
  | error e' => simp [bind, Except.bind]
  | ok =>
    simp only [bind, Except.bind, reduceCtorEq, iff_false]
    split
    · simp [pure, Except.pure]
    · cases r.pairs.find? (·.opener == c) <;> simp [pure, Except.pure]

/-- They decline a pair in front of which there is a token of a kind it is not wanted in. -/
theorem autoCloses_eq_false_iff :
    r.autoCloses c l column = .ok false ↔
      l.check = .ok () ∧ l.tokens ≠ [] ∧
        ∃ p, r.pairs.find? (·.opener == c) = some p ∧
          (l.kindAt? (column - 2)).getD .other ∈ p.notIn := by
  unfold autoCloses
  cases l.check with
  | error e => simp [bind, Except.bind]
  | ok =>
    simp only [bind, Except.bind, true_and]
    split
    · rename_i hnil
      simp [hnil, pure, Except.pure]
    · rename_i hne
      cases hp : r.pairs.find? (·.opener == c) <;>
        simp [hne, pure, Except.pure, AutoClosePair.allows]

/-- The first pair with an opener, among the pairs in front of it and behind it. -/
theorem find?_pairs_eq_some_iff {p : AutoClosePair} :
    r.pairs.find? (·.opener == c) = some p ↔
      ∃ front rest, r.pairs = front ++ p :: rest ∧ p.opener = c ∧ ∀ q ∈ front, q.opener ≠ c := by
  rw [List.find?_eq_some_iff_append]
  simp only [beq_iff_eq, Bool.not_eq_true', beq_eq_false_iff_ne]
  constructor
  · rintro ⟨hopener, front, rest, hpairs, hfront⟩
    exact ⟨front, rest, hpairs, hopener, hfront⟩
  · rintro ⟨front, rest, hpairs, hopener, hfront⟩
    exact ⟨hopener, front, rest, hpairs, hfront⟩

/-- The query whether a pair closes itself fails exactly if the tokens of the line do not fit
it, with the first token that is misplaced. When they fit, the token found for an offset is the
one that covers it, and there is none only in front of the first. The answer is no exactly if
there are tokens, they fit, and the first pair with the opener is kept out of the kind they give
to the character in front of the caret. -/
theorem autoCloses_tokens (r : BracketRules) (c : Char) (l : LineTokens) (column : Nat) :
    ((∃ e, r.autoCloses c l column = .error e) ↔ ¬l.Fits) ∧
      (∀ e, r.autoCloses c l column = .error e ↔
        ∃ i, IsLeast {i | l.Misplaced i} i ∧
          ∃ t ∈ l.tokens[i]?, e = .malformedTokens i t.start) ∧
      (l.Fits → ∀ offset,
        (∀ i, l.indexAt? offset = some i ↔ l.Covers i offset) ∧
          (l.indexAt? offset = none ↔ l.tokens = [] ∨ ∃ t ∈ l.tokens.head?, offset < t.start)) ∧
      (r.autoCloses c l column = .ok false ↔
        l.Fits ∧ l.tokens ≠ [] ∧
          ∃ front p rest, r.pairs = front ++ p :: rest ∧ p.opener = c ∧
            (∀ q ∈ front, q.opener ≠ c) ∧ ∃ k ∈ p.notIn, l.HasKind (column - 2) k) := by
  refine ⟨?_, fun e => ?_, fun h offset => ⟨fun i => ?_, ?_⟩, ?_⟩
  · simp only [autoCloses_eq_error_iff, ← LineTokens.check_eq_ok_iff]
    cases l.check <;> simp
  · rw [autoCloses_eq_error_iff, LineTokens.check_eq_error_iff]
  · exact LineTokens.indexAt?_eq_some_iff h
  · exact LineTokens.indexAt?_eq_none_iff h
  · rw [autoCloses_eq_false_iff, LineTokens.check_eq_ok_iff]
    refine and_congr_right fun h => and_congr_right fun _ => ?_
    have hkind (k : TokenKind) :
        (l.kindAt? (column - 2)).getD .other = k ↔ l.HasKind (column - 2) k :=
      LineTokens.getD_kindAt?_eq_iff h
    simp only [find?_pairs_eq_some_iff, ← hkind]
    constructor
    · rintro ⟨p, ⟨front, rest, hpairs, hopener, hfront⟩, hin⟩
      exact ⟨front, p, rest, hpairs, hopener, hfront, _, hin, rfl⟩
    · rintro ⟨front, p, rest, hpairs, hopener, hfront, _, hin, rfl⟩
      exact ⟨p, ⟨front, rest, hpairs, hopener, hfront⟩, hin⟩

/-- A quotation mark behind the first character of a string. -/
theorem autoCloses_tokens_string :
    let l : LineTokens := ⟨['x', '=', '\x22', 'a'], [⟨0, .other⟩, ⟨2, .string⟩]⟩
    l.Fits ∧ l.indexAt? 3 = some 1 ∧ standard.autoCloses '\x22' l 5 = .ok false := by
  intro l
  obtain ⟨-, -, hlookup, hveto⟩ := autoCloses_tokens standard '\x22' l 5
  have hfits : l.Fits := by decide
  have hcovers : l.Covers 1 3 := ⟨⟨⟨2, .string⟩, rfl, by decide⟩, by simp [l]⟩
  refine ⟨hfits, ((hlookup hfits 3).1 1).mpr hcovers, hveto.mpr ⟨hfits, by decide, ?_⟩⟩
  exact ⟨[⟨'(', ')', []⟩, ⟨'[', ']', []⟩, ⟨'\x7b', '\x7d', []⟩],
    ⟨'\x22', '\x22', [.string, .comment]⟩, [⟨'\x27', '\x27', [.string, .comment]⟩], rfl, rfl,
    by decide, .string, by decide, .inl ⟨1, hcovers, ⟨2, .string⟩, rfl, rfl⟩⟩

end BracketRules

end Keystroke
