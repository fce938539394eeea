import Keystroke.Proofs.Checked
import Keystroke.Proofs.Indentation
import Mathlib.Order.Monotone.Basic

/-!
# Byte offsets

A text may be cut at the bytes of its UTF-8 encoding or at its characters. The two agree : the
byte offsets of the characters are exactly the places where no character is cut
(`Text.isBoundary_iff`), and what lies between two of them is what lies between the two
characters. `Text.cutsAtCharacters` states this for every text together with the two ways of
finding where the content of a line starts and ends.
-/

namespace Keystroke.Text

/-! ## The encoding -/

/-- The UTF-8 encoding. -/
def bytes (t : Text) : List UInt8 :=
  t.flatMap String.utf8EncodeChar

/-- Whether an offset in the encoding is its end or the offset of a byte that starts a
character. -/
def IsBoundary (t : Text) (n : Nat) : Prop :=
  n = t.bytes.length ∨ ∃ b ∈ t.bytes[n]?, b.IsUTF8FirstByte

section

variable {c : Char} {t : Text} {i j n : Nat}

theorem bytes_cons (c : Char) (t : Text) : bytes (c :: t) = String.utf8EncodeChar c ++ bytes t :=
  List.flatMap_cons

/-- Parts are encoded one after the other. -/
theorem bytes_append (s t : Text) : bytes (s ++ t) = bytes s ++ bytes t :=
  List.flatMap_append

/-- A text takes as many bytes as its characters. -/
theorem length_bytes (t : Text) : t.bytes.length = byteLength t := by
  induction t with
  | nil => rfl
  | cons c t ih => rw [bytes_cons, List.length_append, String.length_utf8EncodeChar, ih, byteLength]

theorem isBoundary_nil : IsBoundary [] n ↔ n = 0 := by
  simp [IsBoundary, bytes]

/-- The first character of a text is cut nowhere but in front. -/
theorem isBoundary_cons :
    IsBoundary (c :: t) n ↔ n = 0 ∨ c.utf8Size ≤ n ∧ IsBoundary t (n - c.utf8Size) := by
  have hpos : 0 < c.utf8Size := c.utf8Size_pos
  have hlength : (String.utf8EncodeChar c).length = c.utf8Size := String.length_utf8EncodeChar c
  rcases Nat.lt_or_ge n c.utf8Size with hn | hn
  · have hfirst : IsBoundary (c :: t) n ↔ n = 0 := by
      have hne : n ≠ (bytes (c :: t)).length := by
        rw [bytes_cons, List.length_append]
        omega
      rw [IsBoundary, bytes_cons, List.getElem?_append_left (by omega),
        List.getElem?_eq_getElem (by omega), ← bytes_cons]
      simp [hne, UInt8.isUTF8FirstByte_getElem_utf8EncodeChar]
    simp [hfirst, Nat.not_le_of_lt hn]
  · have hrest : IsBoundary (c :: t) n ↔ IsBoundary t (n - c.utf8Size) := by
      have hend : n = c.utf8Size + t.bytes.length ↔ n - c.utf8Size = t.bytes.length := by omega
      rw [IsBoundary, IsBoundary, bytes_cons, List.length_append,
        List.getElem?_append_right (by omega), hlength, hend]
    simp [hrest, hn, show n ≠ 0 by omega]

end

/-! ## Offsets of characters -/

section

variable {t : Text} {i j n : Nat}

/-- Behind the first character, offsets are counted from its end. -/
theorem byteOffset_cons_succ (c : Char) (t : Text) (i : Nat) :
    byteOffset (c :: t) (i + 1) = c.utf8Size + byteOffset t i :=
  rfl

/-- The boundaries are the offsets of characters and the end. -/
theorem isBoundary_iff : t.IsBoundary n ↔ ∃ i, t.byteOffset i = n := by
  induction t generalizing n with
  | nil => simp [isBoundary_nil, byteOffset, byteLength, eq_comm]
  | cons c t ih =>
    rw [isBoundary_cons, ih]
    constructor
    · rintro (rfl | ⟨hn, i, hi⟩)
      · exact ⟨0, rfl⟩
      · refine ⟨i + 1, ?_⟩
        rw [byteOffset_cons_succ, hi]
        omega
    · rintro ⟨_ | i, rfl⟩
      · exact Or.inl rfl
      · rw [byteOffset_cons_succ]
        exact Or.inr ⟨Nat.le_add_right _ _, i, (Nat.add_sub_cancel_left _ _).symm⟩

/-- An offset is the length of what is encoded in front of it. -/
theorem length_bytes_take (t : Text) (i : Nat) : (bytes (t.take i)).length = t.byteOffset i :=
  length_bytes (t.take i)

/-- The first characters take the first bytes. -/
theorem bytes_take (t : Text) (i : Nat) : bytes (t.take i) = t.bytes.take (t.byteOffset i) := by
  have hsplit : t.bytes = bytes (t.take i) ++ bytes (t.drop i) := by
    rw [← bytes_append, List.take_append_drop]
  rw [hsplit, List.take_left' (length_bytes_take t i)]

/-- Offsets are in the order of indices. -/
theorem byteOffset_mono (t : Text) : Monotone t.byteOffset := by
  intro i j hij
  have hsplit : t.take j = t.take i ++ (t.drop i).take (j - i) := by
    rw [← List.take_add, Nat.add_sub_cancel' hij]
  rw [byteOffset, byteOffset, hsplit, byteLength_append]
  exact Nat.le_add_right _ _

/-- No offset is past the end. -/
theorem byteOffset_le (t : Text) (i : Nat) : t.byteOffset i ≤ t.bytes.length := by
  rw [← length_bytes_take, bytes_take]
  exact List.length_take_le' _ _

end

/-! ## Slices -/

/-- A slice starts at its first index and ends in front of its last one. -/
theorem getElem?_slice (t : Text) (first last k : Nat) :
    (t.slice first last)[k]? = if first + k < max first last then t[first + k]? else none := by
  rw [slice, List.getElem?_take, List.getElem?_drop]
  by_cases h : k < last - first
  · rw [if_pos h, if_pos (by omega)]
  · rw [if_neg h, if_neg (by omega)]

/-- A slice goes on where the text in front of it ends. -/
theorem take_append_slice (t : Text) (first last : Nat) :
    t.take first ++ t.slice first last = t.take (max first last) := by
  rw [show max first last = first + (last - first) by omega, List.take_add, slice]

/-- The bytes of a slice are those between its two offsets. -/
theorem bytes_slice (t : Text) (first last : Nat) :
    bytes (t.slice first last)
      = (t.bytes.take (t.byteOffset (max first last))).drop (t.byteOffset first) := by
  rw [← bytes_take, ← take_append_slice, bytes_append, List.drop_left' (length_bytes_take t first)]

/-- Cut at a character, a text is its two slices. -/
theorem slice_append_slice_length (t : Text) (i : Nat) : t.slice 0 i ++ t.slice i t.length = t := by
  rw [slice_zero, slice_length, List.take_append_drop]

/-! ## Where the content is -/

/-- Everything in front of the first character of the content is indentation. -/
theorem firstContent?_eq_some_iff {t : Text} {i : Nat} :
    t.firstContent? = some i ↔
      (∃ c ∈ t[i]?, isIndent c = false) ∧ ∀ k < i, ∀ c ∈ t[k]?, isIndent c = true := by
  rw [firstContent?, List.findIdx?_eq_some_iff_getElem]
  constructor
  · rintro ⟨hi, hcontent, hindent⟩
    refine ⟨⟨t[i], List.getElem?_eq_getElem hi, by simpa using hcontent⟩, fun k hk c hc => ?_⟩
    obtain ⟨hlt, rfl⟩ := List.getElem?_eq_some_iff.mp hc
    simpa using hindent k hk
  · rintro ⟨⟨c, hc, hcontent⟩, hindent⟩
    obtain ⟨hi, rfl⟩ := List.getElem?_eq_some_iff.mp hc
    refine ⟨hi, by simpa using hcontent, fun k hk => ?_⟩
    have hk' := hindent k hk t[k] (List.getElem?_eq_getElem (Nat.lt_trans hk hi))
    simpa using hk'

/-- Everything behind the last character of the content is indentation. -/
theorem lastContent?_eq_some_iff {t : Text} {j : Nat} :
    t.lastContent? = some j ↔
      (∃ c ∈ t[j]?, isIndent c = false) ∧ ∀ k, j < k → ∀ c ∈ t[k]?, isIndent c = true := by
  -- an index of the reversed text and its mirror image have the same character
  have hmirror : ∀ k < t.length, t.reverse[k]? = t[t.length - k - 1]? := fun k hk => by
    rw [List.getElem?_reverse hk, Nat.sub_right_comm]
  rw [lastContent?, Option.map_eq_some_iff]
  constructor
  · rintro ⟨back, hback, rfl⟩
    obtain ⟨⟨c, hc, hcontent⟩, hindent⟩ := firstContent?_eq_some_iff.mp hback
    have hlt : back < t.length := by
      simpa using (List.getElem?_eq_some_iff.mp hc).1
    refine ⟨⟨c, hmirror back hlt ▸ hc, hcontent⟩, fun k hk d hd => ?_⟩
    have hkl : k < t.length := (List.getElem?_eq_some_iff.mp hd).1
    refine hindent (t.length - k - 1) (by omega) d ?_
    rwa [hmirror _ (by omega), show t.length - (t.length - k - 1) - 1 = k by omega]
  · rintro ⟨⟨c, hc, hcontent⟩, hindent⟩
    have hj : j < t.length := (List.getElem?_eq_some_iff.mp hc).1
    have hback : t.length - (t.length - j - 1) - 1 = j := by omega
    refine ⟨t.length - j - 1, firstContent?_eq_some_iff.mpr ⟨⟨c, ?_, hcontent⟩, ?_⟩, hback⟩
    · rwa [hmirror _ (by omega), hback]
    · intro k hk d hd
      rw [hmirror k (by omega)] at hd
      exact hindent _ (by omega) d hd

/-- The leading indentation and what is cut off behind it at a character make up the text. -/
theorem leadingIndent_append_slice_firstContent? (t : Text) :
    t.leadingIndent ++ t.slice (t.firstContent?.getD t.length) t.length = t := by
  rw [slice_length, getD_firstContent?, drop_length_leadingIndent, leadingIndent_append_content]

/-- There is a first content character if there is a last one. -/
theorem firstContent?_eq_none_iff_lastContent? (t : Text) :
    t.firstContent? = none ↔ t.lastContent? = none := by
  rw [← Option.not_isSome_iff_eq_none, ← Option.not_isSome_iff_eq_none, isSome_firstContent?,
    isSome_lastContent?]

/-- The first and the last content character, with spaces and tabs outside. -/
theorem content_between_of_mem {t : Text} {first last : Nat} (hfirst : t.firstContent? = some first)
    (hlast : t.lastContent? = some last) :
    first ≤ last ∧ (∃ c ∈ t[first]?, isIndent c = false) ∧ (∃ c ∈ t[last]?, isIndent c = false) ∧
      ∀ k, k < first ∨ last < k → ∀ c ∈ t[k]?, isIndent c = true := by
  obtain ⟨hcontent, hbefore⟩ := firstContent?_eq_some_iff.mp hfirst
  obtain ⟨⟨c, hc, hc'⟩, hafter⟩ := lastContent?_eq_some_iff.mp hlast
  refine ⟨?_, hcontent, ⟨c, hc, hc'⟩, fun k hk => hk.elim (hbefore k) (hafter k)⟩
  -- the last character of the content is no indentation, so it is not in front of the first
  refine Nat.le_of_not_lt fun hlt => ?_
  rw [hbefore last hlt c hc] at hc'
  cases hc'

/-! ## Cutting at bytes and at characters -/

/-- What cutting a text at byte offsets has in common with cutting it at characters. -/
structure CutsAtCharacters (t : Text) : Prop where
  isBoundary_byteOffset : ∀ i, t.IsBoundary (t.byteOffset i)
  byteOffset_le_length : ∀ i, t.byteOffset i ≤ t.bytes.length
  byteOffset_monotone : Monotone t.byteOffset
  /-- Cut at the offsets of two characters, no character is split and nothing is out of bounds. -/
  slice_returns : ∀ first last, Checked.slice t first last = pure (t.slice first last)
  slice_bytes : ∀ first last, bytes (t.slice first last)
    = (t.bytes.take (t.byteOffset (max first last))).drop (t.byteOffset first)
  slice_getElem? : ∀ first last k, (t.slice first last)[k]?
    = if first + k < max first last then t[first + k]? else none
  slice_append_slice : ∀ i, t.slice 0 i ++ t.slice i t.length = t
  leadingIndent_returns : Checked.leadingIndent t = pure t.leadingIndent
  lastContent_returns : Checked.lastContent t = pure t.lastContent?
  leadingIndent_append_slice :
    t.leadingIndent ++ t.slice (t.firstContent?.getD t.length) t.length = t
  firstContent?_eq_none_iff : t.firstContent? = none ↔ t.lastContent? = none
  /-- The content starts and ends with characters of its own, and around it are only spaces and
  tabs. -/
  content_between : ∀ first ∈ t.firstContent?, ∀ last ∈ t.lastContent?,
    first ≤ last ∧ (∃ c ∈ t[first]?, isIndent c = false) ∧ (∃ c ∈ t[last]?, isIndent c = false) ∧
      ∀ k, k < first ∨ last < k → ∀ c ∈ t[k]?, isIndent c = true

/-- Cutting a text at the bytes of its characters is cutting it at its characters. -/
theorem cutsAtCharacters (t : Text) : CutsAtCharacters t where
  isBoundary_byteOffset i := isBoundary_iff.mpr ⟨i, rfl⟩
  byteOffset_le_length := byteOffset_le t
  byteOffset_monotone := byteOffset_mono t
  slice_returns := Checked.slice_eq t
  slice_bytes := bytes_slice t
  slice_getElem? := getElem?_slice t
  slice_append_slice := slice_append_slice_length t
  leadingIndent_returns := Checked.leadingIndent_eq t
  lastContent_returns := Checked.lastContent_eq t
  leadingIndent_append_slice := leadingIndent_append_slice_firstContent? t
  firstContent?_eq_none_iff := firstContent?_eq_none_iff_lastContent? t
  content_between _ hfirst _ hlast := content_between_of_mem hfirst hlast

end Keystroke.Text
